/-!
# Outlets

Where a sink writes to. A text goes out in one write, followed by a flush; both
can fail. A failed write takes nothing of the text and is not followed by a
flush, and a failed flush leaves the text written. Nothing is tried twice.

A write is a call that hands over a whole text. What the system below does to
get the text through, in several parts or by going on after an interruption,
stays inside the call; only how the call ends is told here.

An outlet is the record of the calls made on it, together with a schedule that
says which of the calls to come will fail, by their number and with what text.
Everything one may want to know about the past is a view of the record: what
was offered, what arrived, how many calls there were. The schedule is fixed
beforehand, so that a run that suffers faults can be compared with one that
does not.

## Main definitions

* `Faults`: Which calls fail, and with what text.
* `Outlet.Call`: A call that was made and how it ended.
* `Outlet`: A schedule of faults and the calls made so far.
* `Outlet.offered`, `Outlet.chunks`: The texts offered, and those that arrived.
* `Outlet.emit`: Write a text and flush.
-/

namespace Diagnostics

/-- Which write and flush calls fail, counted from one, and with what text. -/
structure Faults where
  write : Nat → Option String
  flush : Nat → Option String

/-- The schedule in which every call succeeds. -/
def Faults.never : Faults :=
  { write := fun _ => none, flush := fun _ => none }

namespace Outlet

/-- A call that was made, with the text of its fault if it failed. -/
inductive Call
  | write (text : String) (fault : Option String)
  | flush (fault : Option String)
deriving DecidableEq, Repr

namespace Call

/-- Whether a call was a write. All others are flushes. -/
def isWrite : Call → Bool
  | .write .. => true
  | .flush _ => false

/-- The text that a call was made with, whatever became of it. -/
def offered? : Call → Option String
  | .write text _ => some text
  | .flush _ => none

/-- The text that a call delivered. -/
def chunk? : Call → Option String
  | .write text none => some text
  | .write _ (some _) => none
  | .flush _ => none

/-- The text of the fault that a call ended in. -/
def fault? : Call → Option String
  | .write _ fault => fault
  | .flush fault => fault

end Call

end Outlet

/-- A schedule of faults and the calls made so far. -/
structure Outlet where
  faults : Faults := .never
  calls : List Outlet.Call := []

namespace Outlet

/-- An outlet on which nothing fails and nothing was done yet. -/
def reliable : Outlet := {}

/-- The texts that were offered, in order, with those that failed. -/
def offered (outlet : Outlet) : List String :=
  outlet.calls.filterMap Call.offered?

/-- The texts that arrived, in order. -/
def chunks (outlet : Outlet) : List String :=
  outlet.calls.filterMap Call.chunk?

/-- The number of the write that comes next. -/
def nextWrite (outlet : Outlet) : Nat :=
  outlet.calls.countP Call.isWrite + 1

/-- The number of the flush that comes next. -/
def nextFlush (outlet : Outlet) : Nat :=
  outlet.calls.countP (fun call => !call.isWrite) + 1

/-- Hand over a whole text in one call, and say what went wrong. The call is on the
    record either way. -/
def write (outlet : Outlet) (text : String) : Outlet × Option String :=
  let fault := outlet.faults.write outlet.nextWrite
  ({ outlet with calls := outlet.calls ++ [.write text fault] }, fault)

/-- Flush what was written, and say what went wrong. -/
def flush (outlet : Outlet) : Outlet × Option String :=
  let fault := outlet.faults.flush outlet.nextFlush
  ({ outlet with calls := outlet.calls ++ [.flush fault] }, fault)

/-- Write a text and flush, giving up at the first fault. There is nothing to
    write of an empty text, which is only flushed. -/
def emit (outlet : Outlet) (text : String) : Outlet × Option String :=
  if text.isEmpty then outlet.flush
  else
    let written := outlet.write text
    if written.2.isSome then written else written.1.flush

end Outlet

end Diagnostics
