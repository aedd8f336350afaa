import Diagnostics.Sink

/-!
# Early Errors

How a program says that it cannot even start. No argument parser has run, so
the settings are picked out of the raw arguments; the error goes through an
ordinary sink, so it looks like every other error.

The stream is taken to be plain. A choice of colour among the arguments still
counts.

## Main definitions

* `earlyError`: What is written for one error before anything else has run.
-/

namespace Diagnostics

/-- The sink of an early error: plain, with the settings that the arguments ask
    for. -/
def earlySink (args : List String) : Sink :=
  .interactive (.ofArgs args) .plain .reliable

/-- What is written for one error before anything else has run. -/
def earlyError (args : List String) (text : String) : String :=
  let sink := ((earlySink args).report (.unplaced .error text)).1
  match sink.finalize with
  | some r => String.join r.outlet.chunks
  | none => String.join sink.recorder.outlet.chunks

end Diagnostics
