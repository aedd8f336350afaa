import Diagnostics.Proofs.Session.Acceptance
import Diagnostics.Proofs.Sink.Quiet

/-!
# Sinks That Do Not Print

One switch of a policy decides whether a sink says anything at all. With it off
the other two do nothing: the limit is one on errors that were counted, the
summary sums up what was counted, and only a sink that prints counts. So it
does not matter to such a sink whether its outlet works or its messages can be
rendered, and there is nothing that could bring it down.

This is true while producers still report, and while the sink is finalized. At
each moment the sink has kept what it has accepted so far, in that order, and
from each moment on it can be finalized, which hands that back.

## Main definitions

* `Recorder.OnlyKeeps`: Messages were kept, and nothing else was done.

## Theorems

* `Sink.Holds.of_not_prints`: What such a sink has to show.
* `Rendezvous.Accepts.sink_of_not_prints`: The same at every moment of a session.
* `Rendezvous.Accepts.collected_of_not_prints`: And at its end.
* `Rendezvous.Reaches.exists_returned`: Every sink can be finalized at any time.
* `Rendezvous.onlyKeeps_of_accepts`: A sink that does not print, from its start
  to its end.
-/

namespace Diagnostics

namespace Recorder

/-- A recorder that keeps messages and has done nothing else: no call was made on
    its outlet, nothing was counted, and no limit was reached. -/
structure OnlyKeeps (r : Recorder) (outlet : Outlet) (messages : List Message) : Prop where
  kept_eq : r.kept = messages
  outlet_eq : r.outlet = outlet
  counts_eq : r.counts = {}
  limitReached_eq : r.limitReached = false

variable {r : Recorder} {outlet : Outlet} {messages : List Message}

/-- Then it has nothing to say at the end either. -/
theorem OnlyKeeps.finish (h : r.OnlyKeeps outlet messages) :
    r.finish.OnlyKeeps outlet messages := by
  rw [finish_of_uncounted h.counts_eq]
  exact { h with }

end Recorder

namespace Sink

variable {r q : Recorder} {taken : List Message} {message : Message} {sink : Sink}

/-- A sink that does not print is not brought down, and has kept what it took. -/
theorem Holds.of_not_prints (hprints : r.policy.prints = false) (h : sink.Holds r taken) :
    sink.isBroken = false ∧ sink.recorder = { r with kept := r.kept ++ taken } := by
  rw [← Recorder.recordAll_of_not_prints hprints taken]
  cases sink with
  | running q => exact ⟨rfl, h.1⟩
  | stopped q => exact ⟨rfl, h.1⟩
  | broken q => exact absurd (h.1.symm.trans hprints) Bool.noConfusion

/-- What it has kept, it kept one after the other, and nothing else has changed. -/
theorem eq_of_ofRecorded (hprints : q.policy.prints = false)
    (h : (ofRecorded (r.record message)).recorder = q) : r.keep message = q := by
  rcases r.record_cases message with
    ⟨r', counted, texts, hrecord, hadvances⟩ | ⟨r', hrecord, hopen, -, hadvances⟩
  · -- The policy is the same before and after.
    rw [hrecord] at h
    have hquiet : r.policy.prints = false := by
      rw [← hadvances.policy, show r' = q from h, hprints]
    rw [Recorder.record_of_silent (Recorder.isSilent_of_not_prints hquiet)] at hrecord
    exact (Recorded.kept.inj hrecord).trans h
  · rw [hrecord] at h
    -- It would have to print in order to be brought down.
    have hspeaks := (Recorder.isSilent_eq_false_iff.mp hopen).2
    rw [← hadvances.policy, show r' = q from h, hprints] at hspeaks
    exact absurd hspeaks Bool.noConfusion

end Sink

namespace Rendezvous

variable {lists : List (List Message)} {order : List Message} {r : Recorder} {s : Rendezvous}
  {collected : Option Recorder}

theorem Accepts.sink_of_not_prints (hprints : r.policy.prints = false)
    (hrun : Accepts (start lists (.running r)) order s) :
    s.worker.sink.isBroken = false ∧
      s.worker.sink.recorder = { r with kept := r.kept ++ order } := by
  have hnothing : (start lists (.running r)).worker.sink.Holds r [] := ⟨rfl, _, _, .refl r⟩
  exact (hrun.holds hnothing).of_not_prints hprints

/-- What finalizing has returned is the recorder of the session, finished. -/
theorem Accepts.collected_of_not_prints (hprints : r.policy.prints = false)
    (hrun : Accepts (start lists (.running r)) order s)
    (hreturned : s.finalizer = .returned collected) :
    collected = some (Recorder.finish { r with kept := r.kept ++ order }) := by
  rcases hrun.sink_of_not_prints hprints with ⟨hsound, hrecorder⟩
  have hended := hrun.reaches.accounts.ended
  rw [session, hreturned] at hended
  have hstopped : s.worker.sink.isRunning = false := hended.1
  have hcollected : collected = s.worker.sink.collect := hended.2
  rw [hcollected, ← hrecorder]
  -- The sink has ended and was not brought down, so it was stopped.
  generalize s.worker.sink = sink at hsound hstopped
  cases sink with
  | running q => exact absurd hstopped Bool.noConfusion
  | stopped q => rfl
  | broken q => exact absurd hsound Bool.noConfusion

/-- The order of acceptance is one that the producers agree with. -/
theorem Accepts.interleaves_of_not_prints (hprints : r.policy.prints = false)
    (hrun : Accepts (start lists (.running r)) order s) :
    Interleaves (s.callers.map fun caller => caller.producer.accepted) order := by
  rcases hrun.reaches.accounts.held with ⟨taken, htaken, hholds⟩
  -- What was kept tells the order of acceptance, and also the order of the accounts.
  have hkept := (hrun.sink_of_not_prints hprints).2.symm.trans (hholds.of_not_prints hprints).2
  have hsame : order = taken := List.append_cancel_left (congrArg Recorder.kept hkept)
  rw [session, List.map_map] at htaken
  rw [hsame]
  exact htaken

/-- A worker that rests lets its sink be finalized, at whatever point that is. -/
theorem exists_returned_of_resting (callers : List Caller) (sink : Sink) (noted : List Entry)
    (finalizer : Finalizer) (hended : finalizer = .joining → sink.isRunning = false) :
    ∃ t collected, Accepts ⟨callers, .resting sink, noted, finalizer⟩ [] t ∧
      t.finalizer = .returned collected := by
  -- By how far finalizing has come: what is left of its steps can be taken at once.
  cases finalizer with
  | idle =>
      cases sink with
      | running r => exact ⟨_, _, .step .ask <| .step .stop <| .step (.join rfl) <| .refl _, rfl⟩
      | stopped r =>
          exact ⟨_, _, .step .ask <| .step (.giveUp rfl) <| .step (.join rfl) <| .refl _, rfl⟩
      | broken r =>
          exact ⟨_, _, .step .ask <| .step (.giveUp rfl) <| .step (.join rfl) <| .refl _, rfl⟩
  | asking =>
      cases sink with
      | running r => exact ⟨_, _, .step .stop <| .step (.join rfl) <| .refl _, rfl⟩
      | stopped r => exact ⟨_, _, .step (.giveUp rfl) <| .step (.join rfl) <| .refl _, rfl⟩
      | broken r => exact ⟨_, _, .step (.giveUp rfl) <| .step (.join rfl) <| .refl _, rfl⟩
  | joining => exact ⟨_, _, .step (.join (hended rfl)) <| .refl _, rfl⟩
  | returned collected => exact ⟨_, collected, .refl _, rfl⟩

/-- Nobody has to wait for a producer, so a sink can be finalized at any time, and
    nothing more needs to be accepted for that. -/
theorem Reaches.exists_returned (hrun : Reaches (start lists (.running r)) s) :
    ∃ t collected, Accepts s [] t ∧ t.finalizer = .returned collected := by
  have hfits := hrun.accounts.ended
  rcases s with ⟨callers, worker, noted, finalizer⟩
  have hended : finalizer = .joining → worker.sink.isRunning = false := by
    rintro rfl
    exact hfits
  cases worker with
  | resting sink => exact exists_returned_of_resting callers sink noted finalizer hended
  | recording q message =>
      -- The worker is first done with what it has taken.
      rcases exists_returned_of_resting callers (.ofRecorded (q.record message)) noted finalizer
        hended with ⟨t, collected, hrest, hreturned⟩
      exact ⟨t, collected, .step .record hrest, hreturned⟩

/-- Producers report to a sink that does not print, whatever else its policy and
    its options say, and whatever its outlet does. Whichever messages it has
    accepted so far, none has brought it down; it has kept them, in the order in
    which it accepted them, and this order is one that the producers agree with.
    No call was made on its outlet, nothing was counted and no limit was reached,
    which is also true while a message is being recorded. If it was finalized,
    the recorder that was returned has kept the same messages and done nothing
    else either. And if it was not, it can be. -/
theorem onlyKeeps_of_accepts {policy : Policy} {options : Options} {terminal : Terminal}
    {outlet : Outlet} (hprints : policy.prints = false)
    (hrun : Accepts (start lists (Sink.start { policy, options, terminal, outlet })) order s) :
    s.worker.sink.isBroken = false ∧
      s.worker.sink.recorder.OnlyKeeps outlet order ∧
      (∀ q message, s.worker = .recording q message →
        ∃ before, order = before ++ [message] ∧ q.OnlyKeeps outlet before) ∧
      Interleaves (s.callers.map fun caller => caller.producer.accepted) order ∧
      (∀ collected, s.finalizer = .returned collected →
        ∃ q, collected = some q ∧ q.OnlyKeeps outlet order) ∧
      ∃ t q, Accepts s [] t ∧ t.finalizer = .returned (some q) ∧ q.OnlyKeeps outlet order := by
  -- All that there is to know of the sink is the recorder that it comes to.
  let quiet : Recorder :=
    { policy, options, terminal, outlet, kept := order, journal := [.started policy] }
  have hquiet : quiet.OnlyKeeps outlet order := ⟨rfl, rfl, rfl, rfl⟩
  rcases hrun.sink_of_not_prints hprints with ⟨hsound, hrecorder⟩
  have hsame : s.worker.sink.recorder = quiet := hrecorder
  refine ⟨hsound, hsame ▸ hquiet, ?_, hrun.interleaves_of_not_prints hprints, ?_, ?_⟩
  · intro q message hworker
    -- While a message is being recorded, all but that one has been kept.
    rw [hworker] at hsame
    have hkeep : q.keep message = quiet := Sink.eq_of_ofRecorded hprints hsame
    rw [← hkeep] at hquiet
    exact ⟨q.kept, hquiet.kept_eq.symm, { hquiet with kept_eq := rfl }⟩
  · intro collected hreturned
    -- Finalizing has returned that recorder.
    exact ⟨_, hrun.collected_of_not_prints hprints hreturned, hquiet.finish⟩
  · -- Or it can still do so, without anything more being accepted.
    rcases hrun.reaches.exists_returned with ⟨t, collected, hrest, hreturned⟩
    have hall := hrun.trans hrest
    rw [List.append_nil] at hall
    have hcollected := hall.collected_of_not_prints hprints hreturned
    exact ⟨t, _, hrest, hcollected ▸ hreturned, hquiet.finish⟩

/-- Two errors, one of them in no place of its source, at a limit of one, with an
    outlet on which every call fails. The sink is asked to stop while it records
    one of them and a producer is held with the other, which is taken first. -/
theorem onlyKeeps_of_accepts_beyond_limit :
    let policy : Policy := { prints := false, limits := true, summarizes := true }
    let options : Options := { snippet := true, errorLimit := 1, level := .info }
    let faults : Faults := { write := fun _ => some "closed", flush := fun _ => some "closed" }
    let source : Source :=
      { index := 0, absolutePath := "/a", displayPath := "a", contents := "ab" }
    let beyond : Message := { source := some source, span := ⟨7, 1⟩, text := "b", kind := .error }
    let plain := Message.unplaced .error "plain"
    let sink := Sink.start { policy, options, terminal := .plain, outlet := { faults } }
    policy.prints = false ∧
      ∃ t q, Accepts (start [[beyond], [plain]] sink) [plain, beyond] t ∧
        t.finalizer = .returned (some q) ∧ q.kept = [plain, beyond] ∧ q.outlet.calls = [] := by
  intro policy options faults source beyond plain sink
  let quiet : Recorder :=
    { policy, options, terminal := .plain, outlet := { faults }, kept := [plain, beyond]
      journal := [.started policy] }
  let t : Rendezvous :=
    { callers := [⟨.idle, ⟨[], [beyond], []⟩⟩, ⟨.idle, ⟨[], [plain], []⟩⟩]
      worker := .resting (.stopped quiet)
      finalizer := .returned (some quiet.finish) }
  -- The second producer is taken first, and the sink is asked to stop meanwhile.
  have hrun : Accepts (start [[beyond], [plain]] sink) [plain, beyond] t :=
    .step (.call []) <| .step (.call [_]) <| .step (.take [_]) <| .step .ask <|
      .step .record <| .step (.take []) <| .step .record <| .step .stop <|
      .step (.join rfl) <| .refl t
  rcases onlyKeeps_of_accepts rfl hrun with ⟨-, -, -, -, hreturned, -⟩
  rcases hreturned _ rfl with ⟨q, hq, honly⟩
  exact ⟨rfl, t, q, hrun, congrArg _ hq, honly.kept_eq, congrArg Outlet.calls honly.outlet_eq⟩

end Rendezvous

end Diagnostics
