import Diagnostics.Proofs.Sink.Alike

/-!
# Runs That Suffer Faults

A recorder whose outlet fails now and then knows as much as one whose outlet
never does, after every message and at the end. The two go through the same
steps, and all that differs is which of the texts arrive.

A text is one attempt on its outlet. The write fails, and that is all; or the
text arrives, and a flush follows, which may fail on its own. The calls made on
an outlet in a whole run are attempts put one after the other, and what is said
here about calls is read off that: where the flushes are, and how many faults
there were to note.

## Main definitions

* `Entry.fault?`: The fault that an entry is about.
* `Outlet.Attempt`: What comes of a text that is offered.
* `Outlet.survivors`: The texts whose writes a schedule lets pass.
* `Outlet.FlushesWrites`: A flush follows what arrived, and nothing else.
* `Recorder.Agrees`: Two recorders that know the same and offered the same.

## Theorems

* `Outlet.exists_attempt`: Offering a text is one attempt.
* `Recorder.agrees_of_faults`: What faults change in a run, and what they do
  not.
-/

namespace Diagnostics

namespace Entry

/-- The fault that an entry is about, if it is about one. -/
def fault? : Entry → Option String
  | .outputFailed fault => some fault
  | _ => none

theorem fault?_of_not_isWarning {entry : Entry} (h : entry.isWarning = false) :
    entry.fault? = none := by
  cases entry with
  | outputFailed fault => exact absurd h Bool.noConfusion
  | _ => rfl

end Entry

namespace Outlet

/-- What comes of a text that is offered. -/
inductive Attempt
  | failed (text fault : String)
  | arrived (text : String) (fault : Option String)

namespace Attempt

/-- The calls of an attempt. A flush is called only behind a write that was done. -/
def calls : Attempt → List Call
  | .failed text fault => [.write text (some fault)]
  | .arrived text fault => [.write text none, .flush fault]

/-- The one fault that an attempt may have suffered. -/
def fault? : Attempt → Option String
  | .failed _ fault => some fault
  | .arrived _ fault => fault

/-- No attempt suffers more than one fault. -/
theorem filterMap_fault?_calls (attempt : Attempt) :
    attempt.calls.filterMap Call.fault? = attempt.fault?.toList := by
  cases attempt with
  | failed text fault => rfl
  | arrived text fault => cases fault <;> rfl

end Attempt

/-- Offering a text is one attempt, which comes back with the fault that it
    suffered. -/
theorem exists_attempt (outlet : Outlet) {text : String} (htext : text ≠ "") :
    ∃ attempt : Attempt, (outlet.emit text).1.calls = outlet.calls ++ attempt.calls ∧
      (outlet.emit text).2 = attempt.fault? := by
  rw [emit_of_ne_empty outlet htext]
  unfold write
  -- The schedule decides about the write, and only then about the flush.
  cases outlet.faults.write outlet.nextWrite with
  | some fault => exact ⟨.failed text fault, rfl, rfl⟩
  | none =>
      let written : Outlet := { outlet with calls := outlet.calls ++ [.write text none] }
      exact ⟨.arrived text (outlet.faults.flush written.nextFlush),
        List.append_assoc outlet.calls _ _, rfl⟩

/-- The texts whose writes do not fail by a schedule, if each text is one write
    and nothing else is written. -/
def survivors (faults : Nat → Option String) (texts : List String) : List String :=
  (texts.zipIdx 1).filterMap fun (text, place) =>
    if (faults place).isSome then none else some text

theorem survivors_concat (faults : Nat → Option String) (texts : List String) (text : String) :
    survivors faults (texts ++ [text]) =
      survivors faults texts ++ if (faults (texts.length + 1)).isSome then [] else [text] := by
  unfold survivors
  rw [List.zipIdx_append, List.filterMap_append, Nat.add_comm 1]
  congr 1
  cases hfault : (faults (texts.length + 1)).isSome <;>
    simp only [List.zipIdx_singleton, List.filterMap_cons, List.filterMap_nil, hfault, if_true,
      Bool.false_eq_true, if_false]

theorem nextWrite_eq (outlet : Outlet) : outlet.nextWrite = outlet.offered.length + 1 := by
  rw [nextWrite, offered, List.length_filterMap_eq_countP]
  congr 2
  funext call
  cases call <;> rfl

/-- A flush follows each write that took its text, and nothing else. -/
def FlushesWrites (calls : List Call) : Prop :=
  (∀ fault, calls[0]? ≠ some (.flush fault)) ∧
    ∀ i, (∃ fault, calls[i + 1]? = some (.flush fault)) ↔
      ∃ text, calls[i]? = some (.write text none)

theorem flushesWrites_flatMap (attempts : List Attempt) :
    FlushesWrites (attempts.flatMap Attempt.calls) := by
  have hnil (i : Nat) (call : Call) : ([] : List Call)[i]? ≠ some call := by
    rw [List.getElem?_nil]
    exact (Option.some_ne_none call).symm
  induction attempts with
  | nil =>
      refine ⟨fun fault => hnil 0 _, fun i => iff_of_false ?_ ?_⟩
      · rintro ⟨fault, hflush⟩
        exact hnil (i + 1) _ hflush
      · rintro ⟨text, hwrite⟩
        exact hnil i _ hwrite
  | cons attempt attempts ih =>
      rw [List.flatMap_cons]
      -- An attempt begins with a write, so no flush of its own comes before it.
      have hrest : ¬ ∃ fault, (attempts.flatMap Attempt.calls)[0]? = some (.flush fault) :=
        fun ⟨fault, h⟩ => ih.1 fault h
      have hwrite {text : String} {fault fault' : Option String} :
          some (Call.write text fault) ≠ some (.flush fault') :=
        fun h => Call.noConfusion (Option.some.inj h)
      cases attempt with
      | failed text fault =>
          -- One call, a write that did not take its text, and so no flush after it.
          refine ⟨fun _ => hwrite, fun i => ?_⟩
          cases i with
          | zero =>
              refine iff_of_false hrest ?_
              rintro ⟨text', h⟩
              rw [Attempt.calls, List.singleton_append, List.getElem?_cons_zero,
                Option.some.injEq, Call.write.injEq] at h
              exact Option.some_ne_none fault h.2
          | succ i => exact ih.2 i
      | arrived text fault =>
          -- Two calls: the write that is followed, and the flush, which is not.
          refine ⟨fun _ => hwrite, fun i => ?_⟩
          rcases i with _ | _ | i
          · exact iff_of_true ⟨fault, rfl⟩ ⟨text, rfl⟩
          · refine iff_of_false hrest ?_
            rintro ⟨text', h⟩
            exact hwrite h.symm
          · exact ih.2 i

/-- The record of an outlet that is only used to offer texts. -/
structure Faithful (outlet : Outlet) : Prop where
  attempts : ∃ attempts : List Attempt, outlet.calls = attempts.flatMap Attempt.calls
  chunks : outlet.chunks = survivors outlet.faults.write outlet.offered

theorem faithful_unused (faults : Faults) : Faithful { faults } where
  attempts := ⟨[], rfl⟩
  chunks := rfl

theorem Faithful.emit {outlet : Outlet} (h : outlet.Faithful) {text : String}
    (htext : text ≠ "") : (outlet.emit text).1.Faithful where
  attempts := by
    rcases h.attempts with ⟨attempts, hcalls⟩
    rcases exists_attempt outlet htext with ⟨attempt, hnew, -⟩
    refine ⟨attempts ++ [attempt], ?_⟩
    rw [hnew, hcalls, List.flatMap_append, List.flatMap_singleton]
  chunks := by
    rw [chunks_emit outlet htext, offered_emit outlet htext, faults_emit, survivors_concat,
      ← nextWrite_eq, h.chunks]

end Outlet

namespace Recorder

/-- Two recorders that know the same and offered the same texts. -/
structure Agrees (r q : Recorder) : Prop where
  counts : r.counts = q.counts
  limitReached : r.limitReached = q.limitReached
  kept : r.kept = q.kept
  offered : r.outlet.offered = q.outlet.offered

/-- The outlet of a run with faults, and what it noted, beside the outlet of a
    run without. -/
structure FaultsApart (faults : Faults) (o : Outlet) (journal : List Entry) (o' : Outlet)
    (_ : List Entry) : Prop where
  faults : o.faults = faults
  faithful : o.Faithful
  noted : journal.filterMap Entry.fault? = o.calls.filterMap Outlet.Call.fault?
  offered : o.offered = o'.offered
  never : o'.faults = .never
  arrived : o'.chunks = o'.offered

theorem upheld_faultsApart (faults : Faults) : Upheld (FaultsApart faults) where
  print := by
    intro o o' journal _ text htext h
    -- The outlet with faults gets one more attempt, and the journal one more fault at most.
    rcases Outlet.exists_attempt o htext with ⟨attempt, hcalls, hfault⟩
    exact {
      faults := (Outlet.faults_emit o text).trans h.faults
      faithful := h.faithful.emit htext
      noted := by
        have hentry : (((o.emit text).2.map Entry.outputFailed).toList).filterMap Entry.fault?
            = (o.emit text).2.toList := by
          cases (o.emit text).2 <;> rfl
        rw [List.filterMap_append, hentry, hfault, hcalls, List.filterMap_append,
          attempt.filterMap_fault?_calls, h.noted]
      offered := by
        rw [Outlet.offered_emit o htext, Outlet.offered_emit o' htext, h.offered]
      never := (Outlet.faults_emit o' text).trans h.never
      arrived := by
        rw [Outlet.chunks_emit_of_never h.never htext, Outlet.offered_emit o' htext, h.arrived] }
  note := by
    intro o o' journal _ entry hentry h
    -- Entries of other kinds are about no fault.
    refine { h with noted := ?_ }
    rw [List.filterMap_append, List.filterMap_cons, Entry.fault?_of_not_isWarning hentry,
      List.filterMap_nil, List.append_nil, h.noted]

theorem Alike.agrees {faults : Faults} {r q : Recorder} (h : r.Alike (FaultsApart faults) q) :
    r.Agrees q where
  counts := h.counts.symm
  limitReached := h.limitReached.symm
  kept := h.kept.symm
  offered := h.related.offered

/-- A run with faults beside the same run without. After any number of messages
    and at the end both know the same and have offered the same texts, which are
    those that arrive where nothing fails. With faults those have arrived whose
    writes did not fail; a flush followed each of them, and nothing else; and
    one fault was noted for each call that failed.

    A write is one call that hands over a whole text, and its fault is what that
    call came back with. Whatever lies below may pass the text on in parts, or
    go on after an interruption, and all of that stays inside the call. -/
theorem agrees_of_faults (policy : Policy) (options : Options) (terminal : Terminal)
    (faults : Faults) (messages : List Message) :
    let r : Recorder := { policy, options, terminal, outlet := { faults } }
    let q : Recorder := { policy, options, terminal }
    let finished := (r.recordAll messages).finish
    (∀ n, (r.recordAll (messages.take n)).Agrees (q.recordAll (messages.take n))) ∧
      finished.Agrees (q.recordAll messages).finish ∧
      finished.outlet.offered = (q.recordAll messages).finish.outlet.chunks ∧
      finished.outlet.chunks = Outlet.survivors faults.write finished.outlet.offered ∧
      Outlet.FlushesWrites finished.outlet.calls ∧
      finished.journal.filterMap Entry.fault? =
        finished.outlet.calls.filterMap Outlet.Call.fault? := by
  intro r q finished
  have hR := upheld_faultsApart faults
  -- The two start alike, and every step of a run keeps them so.
  have hstart : r.Alike (FaultsApart faults) q :=
    { policy := rfl, options := rfl, terminal := rfl, kept := rfl, counts := rfl
      limitReached := rfl
      related :=
        { faults := rfl, faithful := Outlet.faithful_unused faults, noted := rfl, offered := rfl
          never := rfl, arrived := rfl } }
  have hfinished : finished.Alike (FaultsApart faults) (q.recordAll messages).finish :=
    (hstart.recordAll hR messages).finish hR
  have hrelated := hfinished.related
  -- What they know, at every moment and at the end, and the faults that were noted.
  refine ⟨fun n => (hstart.recordAll hR (messages.take n)).agrees, hfinished.agrees, ?_, ?_, ?_,
    hrelated.noted⟩
  · -- What was offered: it is what the run without faults offered, all of which arrived.
    exact hrelated.offered.trans hrelated.arrived.symm
  · -- What arrived: the record of the outlet, by the schedule that it has had throughout.
    rw [hrelated.faithful.chunks, hrelated.faults]
  · -- Where the flushes are: the calls are attempts put one after the other.
    rcases hrelated.faithful.attempts with ⟨attempts, hcalls⟩
    rw [hcalls]
    exact Outlet.flushesWrites_flatMap attempts

/-- The first write fails and the second flush. -/
example :
    let faults : Faults :=
      { write := fun n => if n = 1 then some "full" else none
        flush := fun n => if n = 2 then some "gone" else none }
    let r : Recorder :=
      { policy := .interactive, options := {}, terminal := .plain, outlet := { faults } }
    let finished := (r.recordAll [.unplaced .warning "a", .unplaced .error "b"]).finish
    finished.outlet.chunks = ["error: b\n", "1 warning and 1 error\n"] ∧
      finished.journal.filterMap Entry.fault? = ["full", "gone"] := by
  decide

end Recorder

end Diagnostics
