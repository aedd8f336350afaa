import Diagnostics.Counts.Reading
import Diagnostics.Main
import Diagnostics.Proofs.Color.Runs
import Diagnostics.Proofs.Color.Shown
import Diagnostics.Proofs.Excerpt.LineEndings
import Diagnostics.Proofs.Excerpt.LineNumber
import Diagnostics.Proofs.Excerpt.Order
import Diagnostics.Proofs.Excerpt.Quoted
import Diagnostics.Proofs.Excerpt.Visible
import Diagnostics.Proofs.Excerpt.Width
import Diagnostics.Proofs.Excerpt.Words
import Diagnostics.Proofs.Report.Run
import Diagnostics.Proofs.Session.Orders
import Diagnostics.Proofs.Session.Shutdown
import Diagnostics.Proofs.Sink.Leftovers
import Diagnostics.Proofs.Report.Scan
import Diagnostics.Proofs.Text.Pieces
import Diagnostics.Proofs.Excerpt.Block
import Diagnostics.Proofs.Report.Tabs
import Diagnostics.Proofs.Counts.Reading
import Diagnostics.Proofs.Options.Arguments
import Diagnostics.Proofs.Sink.EarlyError
import Diagnostics.Proofs.Report.Unclosed
