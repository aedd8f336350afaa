import Diagnostics.Proofs.Sink.Steps

/-!
# Recorders That Do Not Print

A recorder whose policy is not to print does one thing with a message: it keeps
it. It asks nothing of the message, so any message will do, and it counts none,
so that there is nothing to limit and nothing to sum up at the end, whatever
else the policy and the options say. A run is then the messages behind what was
kept before, and the outlet is as it was.

The same goes for a recorder that has been silenced by the limit, as far as a
run is concerned; it has counted, though, so its end is another matter.

## Theorems

* `Recorder.recordAll_of_isSilent`: A silent run keeps its messages.
* `Recorder.recordAll_of_not_prints`: So does one that never prints.
* `Recorder.finish_of_uncounted`: Who has counted nothing ends without a word.
* `Recorder.finish_recordAll_of_not_prints`: Such a run to its end.
-/

namespace Diagnostics

namespace Recorder

variable {r : Recorder}

/-- The messages of a silent run are kept, and nothing else happens. -/
theorem recordAll_of_isSilent (h : r.isSilent = true) (messages : List Message) :
    r.recordAll messages = { r with kept := r.kept ++ messages } := by
  induction messages generalizing r with
  | nil =>
      rw [List.append_nil]
      rfl
  | cons m ms ih =>
      rw [recordAll, List.foldl_cons, record_of_silent h]
      have hrest := ih (r := r.keep m) h
      rw [keep, List.append_assoc] at hrest
      exact hrest

/-- Who does not print is silent from the start. -/
theorem recordAll_of_not_prints (h : r.policy.prints = false) (messages : List Message) :
    r.recordAll messages = { r with kept := r.kept ++ messages } :=
  recordAll_of_isSilent (isSilent_of_not_prints h) messages

/-- Who has counted nothing has nothing to sum up. -/
theorem finish_of_uncounted (h : r.counts = {}) :
    r.finish = r.note (.finished r.kept.length r.counts) := by
  have howes : r.owesSummary = false := by
    rw [owesSummary, h]
    exact Bool.and_false _
  rw [finish, howes, if_neg Bool.false_ne_true]

/-- A run of a recorder that does not print, to its end. -/
theorem finish_recordAll_of_not_prints (h : r.policy.prints = false) (hcounts : r.counts = {})
    (messages : List Message) :
    (r.recordAll messages).finish =
      { r with
        kept := r.kept ++ messages
        journal := r.journal ++ [.finished (r.kept ++ messages).length {}] } := by
  have hrun := recordAll_of_not_prints h messages
  have huncounted : (r.recordAll messages).counts = {} := by
    rw [hrun]
    exact hcounts
  rw [finish_of_uncounted huncounted, huncounted, hrun]
  rfl

end Recorder

end Diagnostics
