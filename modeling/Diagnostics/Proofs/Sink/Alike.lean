import Diagnostics.Proofs.Sink.ClosedForm

/-!
# Recorders That Do the Same

A recorder writes to its outlet and its journal and never looks at either. Two
recorders that differ in nothing else therefore do the same from then on: they
keep and count the same, fall silent at the same message, and send the same
texts to their outlets in the same order.

What the outlets and journals have to do with each other is left open. It may
be that they are equal up to an entry, that one of the outlets suffers faults
and the other does not, or something that is only about one of them. Any
relation will do that printing one text to both upholds, and noting one entry
in both. `Recorder.Alike` carries such a relation through a run, and a theorem
about two runs only has to say which relation it is.

## Main definitions

* `Recorder.Upheld`: A relation that printing and noting on both sides keep.
* `Recorder.Alike`: Two recorders that differ in outlet and journal alone.
* `Recorded.Alike`: The same thing has become of a message in both.

## Theorems

* `Recorder.Alike.record`: The same becomes of every message.
* `Recorder.Alike.recordAll`, `Recorder.Alike.finish`: And of every run.
-/

namespace Diagnostics

namespace Recorder

/-- A relation between outlets with their journals that is kept by printing one
    text on both sides, and by noting on both sides what is no warning. -/
structure Upheld (R : Outlet → List Entry → Outlet → List Entry → Prop) : Prop where
  print : ∀ {o o' : Outlet} {j j' : List Entry} {text : String}, text ≠ "" → R o j o' j' →
    R (o.emit text).1 (j ++ ((o.emit text).2.map Entry.outputFailed).toList)
      (o'.emit text).1 (j' ++ ((o'.emit text).2.map Entry.outputFailed).toList)
  note : ∀ {o o' : Outlet} {j j' : List Entry} {entry : Entry}, entry.isWarning = false →
    R o j o' j' → R o (j ++ [entry]) o' (j' ++ [entry])

/-- Two recorders that differ in nothing but outlet and journal, which are
    related. -/
structure Alike (R : Outlet → List Entry → Outlet → List Entry → Prop) (r q : Recorder) :
    Prop where
  policy : q.policy = r.policy
  options : q.options = r.options
  terminal : q.terminal = r.terminal
  kept : q.kept = r.kept
  counts : q.counts = r.counts
  limitReached : q.limitReached = r.limitReached
  related : R r.outlet r.journal q.outlet q.journal

end Recorder

/-- The same has become of a message in two recorders that are still alike. -/
inductive Recorded.Alike (R : Outlet → List Entry → Outlet → List Entry → Prop) :
    Recorded → Recorded → Prop
  | kept {r q : Recorder} (h : r.Alike R q) : Alike R (.kept r) (.kept q)
  | unrenderable {r q : Recorder} (h : r.Alike R q) : Alike R (.unrenderable r) (.unrenderable q)

theorem Recorded.Alike.recorder {R : Outlet → List Entry → Outlet → List Entry → Prop}
    {a b : Recorded} (h : Recorded.Alike R a b) : a.recorder.Alike R b.recorder := by
  cases h with
  | kept h => exact h
  | unrenderable h => exact h

namespace Recorder.Alike

variable {R : Outlet → List Entry → Outlet → List Entry → Prop} {r q : Recorder}

theorem print (hR : Upheld R) (h : r.Alike R q) {text : String} (htext : text ≠ "") :
    (r.print text).Alike R (q.print text) :=
  { h with related := hR.print htext h.related }

theorem note (hR : Upheld R) (h : r.Alike R q) {entry : Entry}
    (hentry : entry.isWarning = false) :
    (r.note entry).Alike R (q.note entry) :=
  { h with related := hR.note hentry h.related }

theorem keep (h : r.Alike R q) (message : Message) :
    (r.keep message).Alike R (q.keep message) :=
  { h with kept := congrArg (· ++ [message]) h.kept }

/-- Counting one more message, before anything is printed. -/
theorem count (h : r.Alike R q) (kind : Kind) :
    Alike R { r with counts := r.counts.add kind } { q with counts := q.counts.add kind } :=
  { h with counts := congrArg (Counts.add · kind) h.counts }

theorem isSilent_eq (h : r.Alike R q) : q.isSilent = r.isSilent := by
  rw [isSilent, isSilent, h.limitReached, h.policy]

theorem atLimit_eq (h : r.Alike R q) : q.atLimit = r.atLimit := by
  rw [atLimit, atLimit, h.policy, h.options, h.counts]

theorem enforceLimit (hR : Upheld R) (h : r.Alike R q) :
    r.enforceLimit.Alike R q.enforceLimit := by
  rw [Recorder.enforceLimit, Recorder.enforceLimit, h.atLimit_eq]
  by_cases hlimit : r.atLimit = true
  · rw [if_pos hlimit, if_pos hlimit]
    have hsilenced : Alike R { r with limitReached := true } { q with limitReached := true } :=
      { h with limitReached := rfl }
    -- The notice is worded from the counts, which both share.
    have hwords : q.limitNotice = r.limitNotice := by
      rw [limitNotice, limitNotice, h.counts]
    have hentry : (Entry.limitReached r.options.errorLimit).isWarning = false := rfl
    rw [h.options] at hsilenced
    rw [hwords, h.options]
    exact (hsilenced.note hR hentry).print hR (limitNotice_ne_empty r)
  · rwa [if_neg hlimit, if_neg hlimit]

/-- The same becomes of a message: it is kept by both, or neither can render
    it. -/
theorem record (hR : Upheld R) (h : r.Alike R q) (message : Message) :
    Recorded.Alike R (r.record message) (q.record message) := by
  -- The cases are those of the recorder, which both go through together.
  rw [Recorder.record, Recorder.record, h.isSilent_eq, h.options, h.terminal]
  by_cases hsilent : r.isSilent = true
  · rw [if_pos hsilent, if_pos hsilent]
    exact .kept (h.keep message)
  · rw [if_neg hsilent, if_neg hsilent]
    -- Open, both count it first, and the rest is the same for both.
    have hcounted := h.count message.kind
    rw [h.options, h.terminal] at hcounted
    by_cases hadmits : r.options.level.admits message.kind = true
    · rw [if_pos hadmits, if_pos hadmits]
      cases htext : message.render? r.terminal r.options with
      | none => exact .unrenderable hcounted
      | some text =>
          exact .kept (((hcounted.print hR (Message.render?_ne_empty htext)).enforceLimit hR).keep
            message)
    · rw [if_neg hadmits, if_neg hadmits]
      exact .kept ((hcounted.enforceLimit hR).keep message)

theorem recordAll (hR : Upheld R) (h : r.Alike R q) (messages : List Message) :
    (r.recordAll messages).Alike R (q.recordAll messages) := by
  induction messages generalizing r q with
  | nil => exact h
  | cons m ms ih =>
      rw [Recorder.recordAll, Recorder.recordAll, List.foldl_cons, List.foldl_cons]
      exact ih (h.record hR m).recorder

theorem finish (hR : Upheld R) (h : r.Alike R q) : r.finish.Alike R q.finish := by
  -- Whether a summary is owed, and its words, are told by what both share.
  have howes : q.owesSummary = r.owesSummary := by
    rw [owesSummary, owesSummary, h.policy, h.limitReached, h.options, h.counts]
  have hwords : q.summary = r.summary := by
    rw [summary, summary, h.counts]
  have hentry : (Entry.finished r.kept.length r.counts).isWarning = false := rfl
  rw [Recorder.finish, Recorder.finish, howes, hwords, h.kept, h.counts]
  by_cases hsummary : r.owesSummary = true
  · rw [if_pos hsummary, if_pos hsummary]
    exact (h.print hR (summary_ne_empty r)).note hR hentry
  · rw [if_neg hsummary, if_neg hsummary]
    exact h.note hR hentry

end Recorder.Alike

end Diagnostics
