import Diagnostics.Proofs.Session.Rendezvous
import Diagnostics.Proofs.Sink.Commands

/-!
# Nothing Is Lost Around a Shutdown

A sink may be finalized while producers still report to it, and even while some
of them are held in a call. Which messages it takes before the shutdown is then
a matter of who comes first. What becomes of a message is not: either it was
taken, and then it is among those that are handed back, or it was not, and then
its producer has noted that.

The accounts of a session say this of every moment. At the end nothing is
pending and nothing is held, so that every message is accepted or refused; the
sink was collected and holds what was accepted.

What is handed back can be told without the session altogether. It is what one
recorder makes of the messages that are handed back, in that order.

## Theorems

* `Recorder.late_not_mem_journal`: A recorder notes no late messages.
* `Rendezvous.returned_of_reaches`: What finalizing returns, and what the
  producers know by then.
-/

namespace Diagnostics

namespace Recorder

/-- Nothing late was noted on the left, whatever there is on the right. -/
def NothingLate (_ : Outlet) (journal : List Entry) (_ : Outlet) (_ : List Entry) : Prop :=
  ∀ text, Entry.late text ∉ journal

theorem upheld_nothingLate : Upheld NothingLate where
  print := by
    intro o _ journal _ text _ h late hmem
    rcases List.mem_append.mp hmem with hbefore | hfault
    · exact h late hbefore
    · -- A print notes a fault of the outlet or nothing.
      rcases Option.map_eq_some_iff.mp (Option.mem_toList.mp hfault) with ⟨fault, -, hentry⟩
      exact Entry.noConfusion hentry
  note := by
    intro _ _ journal _ entry hentry h late hmem
    rcases List.mem_append.mp hmem with hbefore | hnew
    · exact h late hbefore
    · rw [← List.mem_singleton.mp hnew] at hentry
      exact absurd hentry Bool.noConfusion

/-- That a message was late is for its producer to note. -/
theorem late_not_mem_journal {r : Recorder} (h : ∀ text, Entry.late text ∉ r.journal)
    (messages : List Message) (text : String) :
    Entry.late text ∉ (r.recordAll messages).finish.journal := by
  have hself : r.Alike NothingLate r :=
    { policy := rfl, options := rfl, terminal := rfl, kept := rfl, counts := rfl
      limitReached := rfl, related := h }
  exact ((hself.recordAll upheld_nothingLate messages).finish upheld_nothingLate).related text

end Recorder

namespace Rendezvous

variable {lists : List (List Message)} {t : Rendezvous}

/-- Producers report to a sink that is finalized at some moment, and all calls
    have returned. If no message has brought the sink down, which only a sink
    that prints can be, then a recorder was returned. Each producer's list is
    what was accepted of it and then what was refused. One warning was noted for
    each refused message, and none for any other. What was kept is what was
    accepted, in an order that the producers agree with. And apart from what was
    noted, output included, the recorder is what a fresh one makes of the kept
    messages. -/
theorem returned_of_reaches {policy : Policy} {options : Options} {terminal : Terminal}
    {outlet : Outlet} {collected : Option Recorder}
    (hrun : Reaches (start lists (Sink.start { policy, options, terminal, outlet })) t)
    (hdone : t.AllDone) (hreturned : t.finalizer = .returned collected)
    (hsound : policy.prints = true → t.worker.sink.isBroken = false) :
    ∃ r, collected = some r ∧
      t.callers.map (fun caller => caller.producer.accepted ++ caller.producer.refused) = lists ∧
      Interleaves (t.callers.map fun caller => caller.producer.notes) t.noted ∧
      (∀ text, Entry.late text ∉ r.journal) ∧
      Interleaves (t.callers.map fun caller => caller.producer.accepted) r.kept ∧
      r.unlogged =
        (Recorder.recordAll { policy, options, terminal, outlet } r.kept).finish.unlogged := by
  have haccounts := hrun.accounts
  -- A sink that does not print is never brought down, and of the others it is assumed.
  have hbroken : t.session.sink.isBroken = false := by
    refine Bool.eq_false_iff.mpr fun hbroken => ?_
    exact absurd ((hsound (haccounts.exists_of_isBroken hbroken).1).symm.trans hbroken)
      Bool.false_ne_true
  rcases haccounts.collected (congrArg Finalizer.ending hreturned) hbroken with
    ⟨taken, rfl, hkept, htaken⟩
  -- A fresh recorder that has noted its start has kept nothing so far.
  rw [show (Recorder.note _ _).kept = [] from rfl, List.nil_append] at hkept
  have hsplit := haccounts.split_of_done (pending_of_allDone hdone)
  have hnoted := haccounts.noted
  rw [session, List.map_map] at hsplit hnoted htaken
  refine ⟨_, rfl, hsplit, hnoted, ?_, ?_, ?_⟩
  · -- The recorder itself has noted nothing late: a fresh one has noted its start alone.
    refine Recorder.late_not_mem_journal (fun text hmem => ?_) taken
    exact Entry.noConfusion (List.mem_singleton.mp hmem)
  · rw [hkept]
    exact htaken
  · rw [hkept]
    -- And but for that note it is a fresh recorder.
    have halike := Recorder.alike_note { policy, options, terminal, outlet } (.started policy)
    exact ((halike.recordAll Recorder.upheld_sameOutlet taken).finish
      Recorder.upheld_sameOutlet).unlogged_eq

/-- Two producers, one of which is held in a call while the sink stops. Its
    message is noted, and the other's is printed and handed back. -/
theorem returned_while_sending :
    let early := Message.unplaced .error "early"
    let late := Message.unplaced .error "late"
    ∃ t r, Reaches (start [[early], [late]] (Sink.interactive {} .plain .reliable)) t ∧
      t.AllDone ∧ t.finalizer = .returned (some r) ∧ t.worker.sink.isBroken = false ∧
      t.noted = [.late "late"] ∧ r.kept = [early] ∧
      r.outlet.chunks = ["error: early\n", "1 error\n"] := by
  intro early late
  let r : Recorder := { policy := .interactive, options := {}, terminal := .plain }
  let before : Recorder := r.note (.started .interactive)
  let after : Recorder := (before.record early).recorder
  let t : Rendezvous :=
    { callers := [⟨.idle, ⟨[], [early], []⟩⟩, ⟨.idle, ⟨[], [], [late]⟩⟩]
      worker := .resting (.stopped after)
      noted := [.late "late"]
      finalizer := .returned (some after.finish) }
  -- Both call, one is taken, and the sink is told to stop before it can take the other.
  have hrun : Reaches (start [[early], [late]] (Sink.interactive {} .plain .reliable)) t :=
    .step (.call []) <| .step (.call [_]) <| .step (.take []) <| .step .ask <|
      .step .record <| .step .stop <| .step (.bounce [_] rfl) <| .step (.join rfl) <|
      .step (.note [_]) <| .refl t
  have hdone : t.AllDone := by decide
  rcases returned_of_reaches hrun hdone rfl (fun _ => rfl) with
    ⟨q, hq, -, -, -, haccepted, hunlogged⟩
  -- What was accepted is one message, and so what was kept.
  have hkept : q.kept = [early] := List.perm_singleton.mp haccepted.perm_flatten
  have hchunks := congrArg (fun recorder : Recorder => recorder.outlet.chunks) hunlogged
  refine ⟨t, q, hrun, hdone, congrArg _ hq, rfl, rfl, hkept, ?_⟩
  rw [hkept] at hchunks
  exact hchunks.trans (by decide)

end Rendezvous

end Diagnostics
