import Diagnostics.Proofs.Session.Rendezvous
import Diagnostics.Proofs.Sink.Limit

/-!
# What the Producers' Order Decides

When all producers are done before a sink is finalized, everything they had to
say was accepted, and the order in which it was is an interleaving of what they
had to say. Nothing else about a run matters: who called when, and who was held
for how long, leaves no trace in the recorder that is returned.

So the runs of a session are compared by comparing the orders of one set of
messages. Below the error limit the order decides the order of the output and
nothing else. Where the limit is reached it also decides which warnings are
printed, but not how many errors are, nor what the last words look like. What
is handed back is the same in any case.

## Main definitions

* `Rendezvous.Completes`: A run in which all producers are done first.

## Theorems

* `Session.Reaches.producers_eq`: Producers that are done stay as they are.
* `Rendezvous.Completes.exists_order`: What is returned is what one order of
  all messages leads to.
* `Rendezvous.returned_of_completes`: What two such runs have in common.
-/

namespace Diagnostics

namespace Session

variable {s t : Session}

theorem Step.producers_eq (hstep : Step s t)
    (hdone : ∀ producer ∈ s.producers, producer.pending = []) : t.producers = s.producers := by
  rcases hstep.of_done hdone with ⟨-, rfl⟩ | ⟨-, rfl⟩
  · rfl
  · rfl

theorem Reaches.producers_eq (hrun : Reaches s t)
    (hdone : ∀ producer ∈ s.producers, producer.pending = []) : t.producers = s.producers := by
  induction hrun with
  | refl s => rfl
  | step hstep _ ih =>
      have hsame := hstep.producers_eq hdone
      rw [ih (by rwa [hsame]), hsame]

end Session

namespace Rendezvous

variable {lists : List (List Message)} {collected collected' : Option Recorder}

/-- A run in which all producers are done before the sink is finalized, and
    what finalizing returned. -/
def Completes (lists : List (List Message)) (sink : Sink) (collected : Option Recorder) : Prop :=
  ∃ s t, Reaches (start lists sink) s ∧ s.AllDone ∧ s.finalizer = .idle ∧
    Reaches s t ∧ t.finalizer = .returned collected

/-- When the producers of a sink are done before anybody has told it to stop,
    and no message can have brought it down, everything was accepted. -/
theorem accepted_of_idle {s : Rendezvous} {r : Recorder}
    (hrenders : ∀ list ∈ lists, ∀ message ∈ list, r.Renders message)
    (h : s.session.Accounts lists r) (hdone : s.AllDone) (hidle : s.finalizer = .idle) :
    s.session.producers.map Producer.accepted = lists := by
  -- What runs has refused nothing.
  have hrunning : s.session.sink.isRunning = true := by
    have hended := h.ended
    rw [show s.session.ending = .awaited from congrArg Finalizer.ending hidle] at hended
    have hsound := h.isBroken_of_renders hrenders
    generalize s.session.sink = sink at hended hsound
    cases sink with
    | running q => rfl
    | stopped q => exact absurd rfl (hended q)
    | broken q => exact absurd hsound Bool.noConfusion
  rw [← h.split_of_done (pending_of_allDone hdone)]
  refine List.map_congr_left fun producer hmem => ?_
  rw [h.unrefused hrunning producer hmem, List.append_nil]

/-- If no message can bring the sink down, then what is returned is what the
    sink's recorder makes of all messages, in an order that the producers agree
    with. -/
theorem Completes.exists_order {r : Recorder}
    (hrenders : ∀ list ∈ lists, ∀ message ∈ list, r.Renders message)
    (h : Completes lists (.running r) collected) :
    ∃ order, Interleaves lists order ∧ collected = some (r.recordAll order).finish ∧
      (r.recordAll order).finish.kept = r.kept ++ order := by
  rcases h with ⟨s, t, hrun, hdone, hidle, hend, hreturned⟩
  have hsound := (hrun.session (sound_start lists (.running r))).2
  have hmoves := (hend.session hsound).1
  -- The accounts hold at the end, so what was collected has kept what was accepted.
  have haccounts := hmoves.accounts hrun.accounts
  rcases haccounts.collected (congrArg Finalizer.ending hreturned)
      (haccounts.isBroken_of_renders hrenders) with ⟨order, hcollected, hkept, horder⟩
  -- Producers that are done have nothing refused to them later.
  rw [hmoves.producers_eq (pending_of_allDone hdone),
    accepted_of_idle hrenders hrun.accounts hdone hidle] at horder
  exact ⟨order, horder, hcollected, hkept⟩

section Interactive

variable {options : Options} {terminal : Terminal}

/-- The same for a sink that prints, which has noted its start and nothing
    else. -/
theorem Completes.exists_fresh_order
    (hrenders : ∀ list ∈ lists, ∀ message ∈ list,
      (message.render? (terminal.withColorMode options.color) options).isSome = true)
    (h : Completes lists (Sink.interactive options terminal .reliable) collected) :
    let fresh := Recorder.fresh options (terminal.withColorMode options.color)
      [.started .interactive]
    ∃ order, Interleaves lists order ∧ (∀ message ∈ order, fresh.Renders message) ∧
      collected = some (fresh.recordAll order).finish ∧
      (fresh.recordAll order).finish.kept = order := by
  intro fresh
  have hrenders' : ∀ list ∈ lists, ∀ message ∈ list, fresh.Renders message :=
    fun list hlist message hmem _ => hrenders list hlist message hmem
  rcases Completes.exists_order (r := fresh) hrenders' h with ⟨order, horder, hcollected, hkept⟩
  refine ⟨order, horder, ?_, hcollected, hkept⟩
  intro message hmem
  rcases List.mem_flatten.mp (horder.perm_flatten.subset hmem) with ⟨list, hlist, hmem⟩
  exact hrenders' list hlist message hmem

/-- Two runs over the same producers' lists, in which all producers are done
    before the sink is finalized, for a sink that prints to a reliable outlet
    messages that can all be rendered. Both return a recorder, and both have
    kept everything, in an order that the producers agree with. There is an
    error among what was kept exactly if there is one at all. If the errors are
    fewer than the limit, or there is none, then both have written the same
    texts in some order, followed by the same summary if there is one, and have
    counted the same. If there is a limit, then each has kept to it. -/
theorem returned_of_completes
    (hrenders : ∀ list ∈ lists, ∀ message ∈ list,
      (message.render? (terminal.withColorMode options.color) options).isSome = true)
    (h : Completes lists (Sink.interactive options terminal .reliable) collected)
    (h' : Completes lists (Sink.interactive options terminal .reliable) collected') :
    let errors := lists.flatten.countP Message.isError
    ∃ r r', collected = some r ∧ collected' = some r' ∧
      Interleaves lists r.kept ∧ Interleaves lists r'.kept ∧ r.kept.Perm r'.kept ∧
      (anyError r.kept = true ↔ 0 < errors) ∧
      (options.errorLimit = 0 ∨ errors < options.errorLimit →
        r.counts = r'.counts ∧
        ∃ texts texts' closing, texts.Perm texts' ∧
          r.outlet.chunks = texts ++ closing ∧ r'.outlet.chunks = texts' ++ closing ∧
          closing = Recorder.closingWords .interactive options lists.flatten lists.flatten) ∧
      (0 < options.errorLimit → ∃ written texts closing,
        r.KeepsToLimit options (terminal.withColorMode options.color) errors
          written texts closing) := by
  intro errors
  -- Each run is what one recorder makes of all messages in some order of its own.
  rcases h.exists_fresh_order hrenders with ⟨order, horder, hrun, rfl, hkept⟩
  rcases h'.exists_fresh_order hrenders with ⟨order', horder', hrun', rfl, hkept'⟩
  have hall := horder.perm_flatten
  have hall' := horder'.perm_flatten
  have hsame := hall.trans hall'.symm
  refine ⟨_, _, rfl, rfl, by rwa [hkept], by rwa [hkept'], by rwa [hkept, hkept'], ?_, ?_, ?_⟩
  · rw [hkept, anyError, List.any_eq_true, ← List.countP_pos_iff, hall.countP_eq]
  · -- Both are told by the counts of all messages, and the texts by a permutation.
    intro hbelow
    rcases Recorder.finish_fresh_of_below hall hrun hbelow with ⟨hchunks, hcounts⟩
    rcases Recorder.finish_fresh_of_below hall' hrun' hbelow with ⟨hchunks', hcounts'⟩
    exact ⟨hcounts.trans hcounts'.symm, _, _, _, Recorder.rendered_perm _ hsame, hchunks,
      hchunks', rfl⟩
  · intro hpos
    -- With a limit each order keeps to it by itself.
    have hkeeps := Recorder.keepsToLimit hpos hrun
    rwa [hall.countP_eq] at hkeeps

end Interactive

/-- An error and a warning, at a limit of one error. If the error comes first,
    the warning is not printed. What is handed back is the same. -/
theorem returned_of_completes_two :
    let error := Message.unplaced .error "a"
    let warning := Message.unplaced .warning "b"
    let sink := Sink.interactive { errorLimit := 1 } .plain .reliable
    ∃ r r', Completes [[error], [warning]] sink (some r) ∧
      Completes [[error], [warning]] sink (some r') ∧ r.kept.Perm r'.kept ∧
      r.outlet.chunks =
        ["error: a\n", "1 error reached (disable error limit with --error-limit=0)\n"] ∧
      r'.outlet.chunks = ["warning: b\n", "error: a\n",
        "1 warning and 1 error reached (disable error limit with --error-limit=0)\n"] := by
  intro error warning sink
  let fresh := Recorder.fresh { errorLimit := 1 } .plain [.started .interactive]
  let callers : List Caller := [⟨.idle, ⟨[], [error], []⟩⟩, ⟨.idle, ⟨[], [warning], []⟩⟩]
  have hdone : ∀ caller ∈ callers, caller.IsDone := by decide
  -- However the two were taken, the sink is then finalized in the same way.
  have hcompletes (r : Recorder)
      (hrun : Reaches (start [[error], [warning]] sink)
        ⟨callers, .resting (.running r), [], .idle⟩) :
      Completes [[error], [warning]] sink (some r.finish) :=
    ⟨_, ⟨callers, .resting (.stopped r), [], .returned (some r.finish)⟩, hrun, hdone, rfl,
      .step .ask <| .step .stop <| .step (.join rfl) <| .refl _, rfl⟩
  -- The error is taken before the other producer calls.
  have hfirst : Completes [[error], [warning]] sink
      (some (fresh.recordAll [error, warning]).finish) :=
    hcompletes _ <| .step (.call []) <| .step (.take []) <| .step .record <|
      .step (.call [_]) <| .step (.take [_]) <| .step .record <| .refl _
  -- Both call, and the warning is taken first.
  have hsecond : Completes [[error], [warning]] sink
      (some (fresh.recordAll [warning, error]).finish) :=
    hcompletes _ <| .step (.call []) <| .step (.call [_]) <| .step (.take [_]) <|
      .step .record <| .step (.take []) <| .step .record <| .refl _
  have hrenders : ∀ list ∈ [[error], [warning]], ∀ message ∈ list,
      (message.render? (Terminal.plain.withColorMode .auto) { errorLimit := 1 }).isSome = true := by
    decide
  rcases returned_of_completes hrenders hfirst hsecond with ⟨r, r', hr, hr', -, -, hsame, -⟩
  rw [← Option.some.inj hr, ← Option.some.inj hr'] at hsame
  exact ⟨_, _, hfirst, hsecond, hsame, by decide, by decide⟩

end Rendezvous

end Diagnostics
