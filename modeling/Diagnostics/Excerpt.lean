import Diagnostics.Excerpt.Window
import Diagnostics.Message
import Diagnostics.Text.Lines
import Diagnostics.Text.Tabs

/-!
# Excerpts

An excerpt is a message's span resolved to something that can be shown: a line
number, a column, and the line with the covered columns marked.

The two numbers and the line come from the same position, that of the text
before the span, so the number always belongs to the line that is shown. The
line begins at the position's line start and ends at the first boundary after
that. Between a carriage return and its line feed this line is empty.

The marker is found by measuring, not by searching: its first column is the
width of the line up to the span, its end the width up to the end of the span.
A span that runs past the end of the line is measured as if the line went on,
and `MarkedLine.ofBounds` draws the result back in.

The column stays a number of bytes, because tools read it; the marker counts
displayed columns, because people do.

## Main definitions

* `Excerpt`: A line number, a column, and the line as shown.
* `Excerpt.ofSpan?`: The excerpt for a span of a text.
-/

namespace Diagnostics

/-- A span resolved to what can be shown of it. -/
structure Excerpt where
  /-- Number of the line, from one. -/
  line : Nat
  /-- Bytes between the start of the line and the span. -/
  column : Nat
  /-- The line, with the columns of the span marked. -/
  shown : MarkedLine
deriving DecidableEq, Repr

namespace Excerpt

/-- The excerpt for a span of a text on a terminal of some width, or `none` if
    the span does not fit the text. -/
def ofSpan? (cs : List Char) (span : Span) (width : Nat) : Option Excerpt := do
  let (before, rest) ← Text.splitAt? span.start cs
  let (covered, _) ← Text.splitAt? span.length rest
  let place := Text.position before
  let (_, lead) ← Text.splitAt? place.lineStart before
  let line := MarkedLine.ofBounds (Text.expandTabs (Text.lineText (lead ++ rest)))
    (Text.expandedWidth lead) (Text.expandedWidth (lead ++ covered))
  return { line := place.lineCount + 1, column := place.column, shown := line.fit width }

end Excerpt

end Diagnostics
