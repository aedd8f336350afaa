import Diagnostics.Proofs.Session.Accounts
import Diagnostics.Proofs.Sink.Alike
import Diagnostics.Sink.Rendezvous

/-!
# Sessions by Rendezvous

The steps that the parties of a session take on their own are the moves of a
session, with pauses. Of the nine steps four are moves: a message is taken, a
refusal is noted, the shutdown has its answer, and the sink is collected. The
others are between a party and itself and change nothing that was agreed on.

Only one of the moves needs an argument. A message that came back is noted as
refused, and at that moment the worker may not run. It came back from a worker
that had ended, and no worker begins again.

## Main definitions

* `Worker.HasEnded`: A worker that will take no more.
* `Rendezvous.Sound`: What came back, came back from a worker that has ended.

## Theorems

* `Rendezvous.Step.session`: A step is a move or changes nothing.
* `Rendezvous.Reaches.session`: A run is a run of the session.
* `Rendezvous.Reaches.accounts`: Every message is in one place, at every moment.
-/

namespace Diagnostics

/-- A worker that will take no more. -/
def Worker.HasEnded : Worker → Prop
  | .resting sink => sink.isRunning = false
  | .recording _ _ => False

namespace Rendezvous

/-- Messages come back from a worker that has ended and from no other. -/
def Sound (callers : List Caller) (worker : Worker) : Prop :=
  ∀ caller ∈ callers, (∃ message, caller.call = .bounced message) → worker.HasEnded

variable {left right callers : List Caller} {caller caller' : Caller} {worker worker' : Worker}
  {s t : Rendezvous}

/-- One party moves. -/
theorem Sound.replace (h : Sound (left ++ caller :: right) worker)
    (hworker : worker.HasEnded → worker'.HasEnded)
    (hcaller : (∃ message, caller'.call = .bounced message) → worker'.HasEnded) :
    Sound (left ++ caller' :: right) worker' := by
  intro other hmem hbounced
  rcases List.mem_append.mp hmem with hleft | hrest
  · exact hworker (h other (List.mem_append_left _ hleft) hbounced)
  · rcases List.mem_cons.mp hrest with rfl | hright
    · exact hcaller hbounced
    · exact hworker (h other (List.mem_append_right _ (List.mem_cons_of_mem _ hright)) hbounced)

theorem Sound.of_worker (h : Sound callers worker) (hworker : worker.HasEnded → worker'.HasEnded) :
    Sound callers worker' :=
  fun caller hmem hbounced => hworker (h caller hmem hbounced)

theorem sound_start (lists : List (List Message)) (sink : Sink) :
    Sound (start lists sink).callers (start lists sink).worker := by
  intro caller hmem hbounced
  rcases List.mem_map.mp hmem with ⟨pending, -, rfl⟩
  rcases hbounced with ⟨message, hcall⟩
  exact absurd hcall Call.noConfusion

theorem Step.sound (hstep : Step s t) (h : Sound s.callers s.worker) :
    Sound t.callers t.worker := by
  -- Only a message that comes back is new to a producer, and it comes from an ended worker.
  cases hstep with
  | call left => exact h.replace id fun ⟨_, hcall⟩ => absurd hcall Call.noConfusion
  | take left =>
      exact h.replace (absurd · Bool.noConfusion) fun ⟨_, hcall⟩ => absurd hcall Call.noConfusion
  | record => exact h.of_worker False.elim
  | bounce left hended => exact h.replace id fun _ => hended
  | note left => exact h.replace id fun ⟨_, hcall⟩ => absurd hcall Call.noConfusion
  | ask => exact h
  | stop => exact h.of_worker (absurd · Bool.noConfusion)
  | giveUp hended => exact h
  | join hended => exact h

/-- The session of the parties, when one of them is told apart from the others. -/
theorem session_append_cons (noted : List Entry) (finalizer : Finalizer) :
    Rendezvous.session ⟨left ++ caller :: right, worker, noted, finalizer⟩ =
      ⟨left.map Caller.settled ++ caller.settled :: right.map Caller.settled, worker.sink, noted,
        finalizer.ending⟩ := by
  rw [session, List.map_append, List.map_cons]

/-- A step is a move of the session, or it changes nothing that was agreed on. -/
theorem Step.session (hstep : Step s t) (h : Sound s.callers s.worker) :
    s.session = t.session ∨ Session.Step s.session t.session := by
  cases hstep with
  | call left =>
      -- What is pending becomes what is held, which is still the producer's.
      rw [session_append_cons, session_append_cons]
      exact Or.inl rfl
  | take left =>
      rw [session_append_cons, session_append_cons]
      -- What is taken is accepted, and counts as recorded from here on.
      exact Or.inr .accept
  | record => exact Or.inl rfl
  | bounce left hended =>
      rw [session_append_cons, session_append_cons]
      exact Or.inl rfl
  | @note left right message pending accepted refused worker noted finalizer =>
      -- The message came back, so there is no worker that could have taken it.
      have hended : worker.HasEnded :=
        h _ (List.mem_append_right left List.mem_cons_self) ⟨message, rfl⟩
      rw [session_append_cons, session_append_cons]
      cases worker with
      | resting sink => exact Or.inr (.refuse hended)
      | recording r other => exact hended.elim
  | ask => exact Or.inl rfl
  | stop => exact Or.inr .close
  | @giveUp callers sink noted hended =>
      -- To tell a sink that does not run to stop leaves it as it is.
      have hsame : sink.close = sink := by
        cases sink with
        | running r => exact absurd hended Bool.noConfusion
        | stopped r => rfl
        | broken r => rfl
      have hmove : Session.Step ⟨callers.map Caller.settled, sink, noted, .awaited⟩
          ⟨callers.map Caller.settled, sink.close, noted, .requested⟩ := .close
      rw [hsame] at hmove
      exact Or.inr hmove
  | join hended => exact Or.inr .collect

/-- A run of the parties is a run of the session that they agree on. -/
theorem Reaches.session (hrun : Reaches s t) (h : Sound s.callers s.worker) :
    Session.Reaches s.session t.session ∧ Sound t.callers t.worker := by
  induction hrun with
  | refl s => exact ⟨.refl _, h⟩
  | @step s t u hstep _ ih =>
      rcases ih (hstep.sound h) with ⟨hrest, hsound⟩
      refine ⟨?_, hsound⟩
      -- The parties have moved, and the session with them or not at all.
      rcases hstep.session h with hsame | hmove
      · rwa [hsame]
      · exact .step hmove hrest

theorem session_start (lists : List (List Message)) (sink : Sink) :
    (start lists sink).session = Session.start lists sink := by
  rw [session, start, Session.start, List.map_map]
  rfl

/-- Wherever the parties get, the accounts of their session hold. -/
theorem Reaches.accounts {lists : List (List Message)} {r : Recorder}
    (hrun : Reaches (start lists (.running r)) t) : t.session.Accounts lists r := by
  have hmoves := (hrun.session (sound_start lists (.running r))).1
  rw [session_start] at hmoves
  exact hmoves.accounts (Session.accounts_start lists r)

/-- Who is done has nothing pending. -/
theorem pending_of_allDone (h : t.AllDone) :
    ∀ producer ∈ t.session.producers, producer.pending = [] := by
  intro producer hmem
  rcases List.mem_map.mp hmem with ⟨caller, hcaller, rfl⟩
  rcases h caller hcaller with ⟨hidle, hpending⟩
  rw [Caller.settled, hidle, hpending]
  rfl

end Rendezvous

end Diagnostics
