import Diagnostics.Counts
import Diagnostics.Sink.Policy

/-!
# The Journal

What a sink notes for whoever runs the program, apart from its output. An entry
says what happened and not how to word it; `Entry.line` has the words.

## Main definitions

* `Entry`: Something worth noting.
* `Entry.isWarning`: Whether it is more than a trace of normal work.
* `Entry.line`: An entry in words.
-/

namespace Diagnostics

/-- Something worth noting about the work of a sink. -/
inductive Entry
  | started (policy : Policy)
  /-- Nobody was left to send messages, and nobody had closed the sink. -/
  | disconnected
  | limitReached (limit : Nat)
  | outputFailed (fault : String)
  /-- A sink handed its messages over. -/
  | finished (kept : Nat) (counts : Counts)
  /-- A message came after its sink had stopped. -/
  | late (text : String)
deriving DecidableEq, Repr

namespace Entry

/-- Whether an entry is more than a trace of normal work. -/
def isWarning : Entry → Bool
  | .outputFailed _ => true
  | .late _ => true
  | _ => false

/-- What an entry says, without how much it matters. -/
def text : Entry → String
  | .started policy => "aggregator started with policy " ++ policy.text
  | .disconnected => "aggregator channel disconnected"
  | .limitReached limit =>
    "error limit of " ++ toString limit ++ " reached, silencing further output"
  | .outputFailed fault => "failed to write diagnostic output: " ++ fault
  | .finished kept counts =>
    "aggregator finished with " ++ toString kept ++ " messages (" ++ counts.text ++ ")"
  | .late text => "diagnostic reported after its sink was finalized: " ++ text

/-- An entry in words, behind the word for how much it matters. -/
def line (entry : Entry) : String :=
  (if entry.isWarning then "WARN " else "DEBUG ") ++ entry.text

end Entry

end Diagnostics
