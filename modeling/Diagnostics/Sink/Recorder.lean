import Diagnostics.Render
import Diagnostics.Sink.Journal
import Diagnostics.Sink.Outlet

/-!
# Recorders

The state of a sink and what one message does to it. A recorder keeps every
message it takes, in order. If its policy says so it also counts them, prints
those that its level admits, and stops printing once the error limit is
reached, after a notice.

The order of these steps shows in what is left when one of them cannot be
done. A message whose span does not fit its source cannot be rendered. By then
it has been counted; it has not been printed, the limit has not been looked at,
and it is not kept. `Recorded` therefore carries a recorder in both cases: the
one that goes on, and the one that was left behind.

Faults of the outlet are noted and have no other effect. They reach the journal
and the record of calls, and no decision looks at either.

## Main definitions

* `Recorder`: The state of a sink.
* `Recorded`: What became of a message.
* `Recorder.print`: Send a text to the outlet and note a fault.
* `Recorder.enforceLimit`: Stop printing if the error limit is reached.
* `Recorder.record`: Take one message.
* `Recorder.recordAll`: Take messages one after the other, whatever becomes of
  each.
* `Recorder.finish`: End with a summary, if there is to be one.
-/

namespace Diagnostics

/-- The state of a sink: what it was set up with, what it keeps, and what it has
    written and noted. -/
structure Recorder where
  policy : Policy
  options : Options
  terminal : Terminal
  outlet : Outlet := .reliable
  kept : List Message := []
  /-- How many messages were considered for printing. -/
  counts : Counts := {}
  /-- Whether the error limit has ended the printing. -/
  limitReached : Bool := false
  journal : List Entry := []

/-- What became of a message. -/
inductive Recorded
  | kept (recorder : Recorder)
  /-- It could not be rendered; the recorder is what it left behind. -/
  | unrenderable (recorder : Recorder)

/-- The recorder after a message, whatever became of it. -/
def Recorded.recorder : Recorded → Recorder
  | .kept recorder => recorder
  | .unrenderable recorder => recorder

namespace Recorder

/-- Put an entry at the end of the journal. -/
def note (r : Recorder) (entry : Entry) : Recorder :=
  { r with journal := r.journal ++ [entry] }

/-- Send a text to the outlet and note a fault. -/
def print (r : Recorder) (text : String) : Recorder :=
  let emitted := r.outlet.emit text
  { r with
    outlet := emitted.1
    journal := r.journal ++ (emitted.2.map Entry.outputFailed).toList }

/-- Put a message at the end of those kept. -/
def keep (r : Recorder) (message : Message) : Recorder :=
  { r with kept := r.kept ++ [message] }

/-- Whether a message is only kept: nothing is printed, or nothing any more. -/
def isSilent (r : Recorder) : Bool :=
  r.limitReached || !r.policy.prints

/-- Whether there is an error limit to keep to and it has been reached. -/
def atLimit (r : Recorder) : Bool :=
  r.policy.limits && r.options.errorLimit != 0 && decide (r.options.errorLimit ≤ r.counts.errors)

/-- The last words before a recorder falls silent. -/
def limitNotice (r : Recorder) : String :=
  r.counts.text ++ " reached (disable error limit with --error-limit=0)\n"

/-- Stop printing, after a notice, if the error limit is reached. -/
def enforceLimit (r : Recorder) : Recorder :=
  if r.atLimit then
    ({ r with limitReached := true }.note (.limitReached r.options.errorLimit)).print r.limitNotice
  else r

/-- Take one message: keep it silently, or count it, print it if the level admits
    it, look at the limit, and keep it last. -/
def record (r : Recorder) (message : Message) : Recorded :=
  if r.isSilent then .kept (r.keep message)
  else
    let counted := { r with counts := r.counts.add message.kind }
    if r.options.level.admits message.kind then
      match message.render? r.terminal r.options with
      | some text => .kept ((counted.print text).enforceLimit.keep message)
      | none => .unrenderable counted
    else .kept (counted.enforceLimit.keep message)

/-- Take messages one after the other, going on from what each leaves behind. -/
def recordAll (r : Recorder) (messages : List Message) : Recorder :=
  messages.foldl (fun r message => (r.record message).recorder) r

/-- Whether the end is to be summed up: the policy and the level ask for it, printing
    has not ended before, and there is something to count. -/
def owesSummary (r : Recorder) : Bool :=
  r.policy.summarizes && !r.limitReached && r.options.level.summarizes && !r.counts.isEmpty

/-- The words of the summary. -/
def summary (r : Recorder) : String :=
  r.counts.text ++ "\n"

/-- End with a summary, if there is to be one, and note the end. -/
def finish (r : Recorder) : Recorder :=
  (if r.owesSummary then r.print r.summary else r).note (.finished r.kept.length r.counts)

end Recorder

end Diagnostics
