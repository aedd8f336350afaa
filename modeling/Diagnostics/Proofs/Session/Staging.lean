import Diagnostics.Proofs.Session.Sequential
import Diagnostics.Proofs.Session.Silence

/-!
# Staging

Messages need not go to the sink that prints them at once. They can be reported
to a deferred sink first, by any number of producers, and what that hands back
can be replayed into the other sink later. Then it looks as if the messages had
been reported there in the first place, one after the other in the order in
which the deferred sink accepted them.

For this the deferred sink must not do anything with a message but keep it. If
it asked whether the message can be rendered, say, then one that cannot would
be missed later on, and so would everything that comes of it: the printing sink
stops in the middle, nothing is handed back, and the rest of the messages is
late. All of that is the same with and without staging.

The order of acceptance is read off the steps of a run, and not off what the
sink has kept at the end. That the two are the same is a part of the theorem.

## Main definitions

* `Recorder.keeping`: A deferred sink's recorder.
* `Rendezvous.Stages`: A run over a deferred sink, to its end.

## Theorems

* `Rendezvous.Reaches.deferred`: A deferred sink is never brought down, and
  writes nothing.
* `Rendezvous.Stages.exists_staged`: What is handed back.
* `Rendezvous.ends_alike_of_stages`: To replay it is to report it.
-/

namespace Diagnostics

namespace Recorder

/-- The recorder of a deferred sink that has kept some messages. -/
def keeping (messages : List Message) : Recorder :=
  { policy := .deferred, options := {}, terminal := .plain, kept := messages
    journal := [.started .deferred] }

theorem recordAll_keeping (messages : List Message) :
    (keeping []).recordAll messages = keeping messages :=
  recordAll_of_not_prints rfl messages

end Recorder

/-- A deferred sink takes whatever it is given. -/
theorem Sink.replay_deferred (messages : List Message) :
    Sink.deferred.replay messages = (.running (.keeping messages), []) := by
  rw [← Recorder.recordAll_keeping messages]
  exact (Sink.replay_of_renders (r := .keeping []) (absurd · Bool.false_ne_true)).1

namespace Rendezvous

variable {lists : List (List Message)} {order : List Message} {r : Recorder}
  {s t u : Rendezvous} {collected : Option Recorder}

/-- A run in which producers report to a deferred sink and are done before it is
    finalized, with the order in which it accepted their messages, the state in
    which finalizing returned, and what it returned. -/
def Stages (lists : List (List Message)) (order : List Message) (t : Rendezvous)
    (collected : Option Recorder) : Prop :=
  ∃ s, Accepts (start lists Sink.deferred) order s ∧ s.AllDone ∧ s.finalizer = .idle ∧
    Reaches s t ∧ t.finalizer = .returned collected

theorem EndsAt.exists_stages (h : EndsAt lists Sink.deferred t collected) :
    ∃ order, Stages lists order t collected := by
  rcases h with ⟨s, hrun, hend⟩
  rcases hrun.exists_accepts with ⟨order, haccepts⟩
  exact ⟨order, s, haccepts, hend⟩

/-- No message brings a deferred sink down, and it writes nothing, whatever the
    producers do and whenever it is finalized. -/
theorem Reaches.deferred (h : Reaches (start lists Sink.deferred) s) :
    s.worker.sink.isBroken = false ∧ s.worker.sink.recorder.outlet.calls = [] ∧
      ∀ collected, s.finalizer = .returned collected →
        ∃ staged, collected = some staged ∧ staged.outlet.calls = [] := by
  -- A deferred sink is a silent one.
  rcases h.exists_accepts with ⟨order, hrun⟩
  have hprints : (Recorder.keeping []).policy.prints = false := rfl
  rcases hrun.sink_of_not_prints hprints with ⟨hsound, hrecorder⟩
  refine ⟨hsound, congrArg (fun q : Recorder => q.outlet.calls) hrecorder, ?_⟩
  intro collected hreturned
  refine ⟨_, hrun.collected_of_not_prints hprints hreturned, ?_⟩
  rw [Recorder.finish_of_uncounted rfl]
  rfl

/-- What was accepted is handed back, and that is all the producers had to say,
    and nobody has noted anything. -/
theorem Stages.exists_staged (h : Stages lists order t collected) :
    ∃ staged, collected = some staged ∧ staged.kept = order ∧ Interleaves lists order ∧
      t.noted = [] := by
  rcases h with ⟨s, haccepts, hdone, hidle, hend, hreturned⟩
  have hrun := haccepts.reaches
  -- Where the run comes to is told twice, by the order in which producers spoke
  -- and by the order of acceptance. So they are the same.
  rcases hrun.exists_replay hdone hidle with ⟨spoken, hspoken, hsink, hnoted⟩
  rw [Sink.replay_deferred] at hsink hnoted
  have hnothing : (start lists Sink.deferred).worker.sink.Holds (Recorder.keeping []) [] :=
    ⟨rfl, _, _, Recorder.Advances.refl _⟩
  have hholds : s.worker.sink.Holds (Recorder.keeping []) order := haccepts.holds hnothing
  rw [hsink] at hholds
  have hsame : spoken = order := by
    have hrecorded := hholds.1
    rw [Recorder.recordAll_keeping] at hrecorded
    exact congrArg Recorder.kept hrecorded
  rcases hend.finalized (hrun.session (sound_start _ _)).2 hdone hidle hreturned with
    ⟨hcollected, -, hlater⟩
  rw [hsink] at hcollected
  rw [← hsame]
  refine ⟨_, hcollected, ?_, hspoken, hlater.trans hnoted⟩
  rw [Recorder.finish_of_uncounted rfl]
  rfl

/-- Any number of producers report to a deferred sink. It is never brought down
    and writes nothing, also if it is finalized while they report. There is a run
    in which they are done before that, and then the sink hands back what it has
    accepted, in that order. This is what the producers had to say, a single one
    in its order, and nobody has noted anything late.

    Then this list is replayed into a sink that prints, which is finalized. Every
    such run ends like every run in which the accepted messages are reported
    there directly: with the same recorder or none, output included, with the
    same sink left behind, and with the same late messages. -/
theorem ends_alike_of_stages (lists : List (List Message)) :
    (∀ s, Reaches (start lists Sink.deferred) s →
      s.worker.sink.isBroken = false ∧ s.worker.sink.recorder.outlet.calls = [] ∧
        ∀ collected, s.finalizer = .returned collected →
          ∃ staged, collected = some staged ∧ staged.outlet.calls = []) ∧
    (∃ order t collected, Stages lists order t collected) ∧
    ∀ order t collected, Stages lists order t collected →
      ∃ staged, collected = some staged ∧ staged.kept = order ∧ Interleaves lists order ∧
        (∀ messages, lists = [messages] → order = messages) ∧
        staged.outlet.calls = [] ∧ t.noted = [] ∧
        ∀ options terminal outlet,
          let sink := Sink.interactive options terminal outlet
          (∃ u result, EndsAt [staged.kept] sink u result) ∧
          ∀ u u' result result',
            EndsAt [staged.kept] sink u result → EndsAt [order] sink u' result' →
              result = result' ∧ u.worker.sink = u'.worker.sink ∧ u.noted = u'.noted := by
  refine ⟨fun _ hrun => hrun.deferred, ?_, ?_⟩
  · -- There is a run, since every list of messages has one.
    rcases exists_endsAt lists Sink.deferred with ⟨t, collected, hends⟩
    rcases hends.exists_stages with ⟨order, hstages⟩
    exact ⟨order, t, collected, hstages⟩
  · intro order t collected hstages
    -- What is handed back is what was accepted.
    rcases hstages.exists_staged with ⟨staged, hcollected, hkept, horder, hnoted⟩
    rcases hstages with ⟨s, haccepts, -, -, hend, hreturned⟩
    -- It comes from a deferred sink, so it has written nothing.
    rcases (haccepts.reaches.trans hend).deferred.2.2 collected hreturned with
      ⟨silent, hsilent, hcalls⟩
    rw [hcollected, Option.some.injEq] at hsilent
    refine ⟨staged, hcollected, hkept, horder, ?_, hsilent ▸ hcalls, hnoted, ?_⟩
    · rintro messages rfl
      exact horder.eq_of_singleton
    · intro options terminal outlet sink
      refine ⟨exists_endsAt [staged.kept] sink, ?_⟩
      intro u u' result result' hreplayed hdirect
      -- One producer with the same messages comes to the same end either way.
      rcases hreplayed.eq_replay with ⟨hresult, hsink, hlate⟩
      rcases hdirect.eq_replay with ⟨hresult', hsink', hlate'⟩
      rw [hkept] at hresult hsink hlate
      exact ⟨hresult.trans hresult'.symm, hsink.trans hsink'.symm, hlate.trans hlate'.symm⟩

/-- Two producers, and a message that cannot be rendered. The deferred sink takes
    it, and hands it back with the others. The printing sink is brought down by
    it, and what comes after it is late. -/
theorem ends_alike_of_stages_unrenderable :
    let first := Message.unplaced .warning "first"
    let source : Source :=
      { index := 0, absolutePath := "/a", displayPath := "a", contents := "ab" }
    let beyond : Message := { source := some source, span := ⟨7, 1⟩, text := "b", kind := .error }
    let last := Message.unplaced .error "last"
    let options : Options := { snippet := true, level := .info }
    ∃ t staged u, Stages [[first, last], [beyond]] [first, beyond, last] t (some staged) ∧
      staged.kept = [first, beyond, last] ∧
      EndsAt [staged.kept] (Sink.interactive options .plain .reliable) u none ∧
      u.worker.sink.recorder.outlet.chunks = ["warning: first\n"] ∧
      u.noted = [.late "last"] := by
  intro first source beyond last options
  let sink := Sink.interactive options .plain .reliable
  let order := [first, beyond, last]
  let callers : List Caller :=
    [⟨.idle, ⟨[], [first, last], []⟩⟩, ⟨.idle, ⟨[], [beyond], []⟩⟩]
  have hdone : ∀ caller ∈ callers, caller.IsDone := by decide
  -- The second producer is taken between the two messages of the first.
  have haccepts : Accepts (start [[first, last], [beyond]] Sink.deferred) order
      ⟨callers, .resting (.running (.keeping order)), [], .idle⟩ :=
    .step (.call []) <| .step (.take []) <| .step (.call []) <| .step (.call [_]) <|
      .step .record <| .step (.take [_]) <| .step .record <| .step (.take []) <|
      .step .record <| .refl _
  have hstages : Stages [[first, last], [beyond]] order _
      (some (Recorder.keeping order).finish) :=
    ⟨_, haccepts, hdone, rfl, reaches_returned _ _ callers, rfl⟩
  rcases (ends_alike_of_stages [[first, last], [beyond]]).2.2 order _ _ hstages with
    ⟨staged, hstaged, hkept, -, -, -, -, hreplay⟩
  rcases hreplay options .plain .reliable with ⟨⟨u, result, hends⟩, halike⟩
  -- The direct run is known from what one sender comes to.
  rcases exists_endsAt [order] sink with ⟨u', result', hdirect⟩
  rcases hdirect.eq_replay with ⟨hresult', hsink', hlate'⟩
  rcases halike u u' result result' hends hdirect with ⟨hresult, hsink, hlate⟩
  have hnothing : (sink.replay order).1.finalize = none :=
    Option.isNone_iff_eq_none.mp (by decide)
  have hbroken : result = none := hresult.trans (hresult'.trans hnothing)
  rw [hbroken] at hends
  refine ⟨_, staged, u, hstaged ▸ hstages, hkept, hends, ?_, ?_⟩
  · rw [hsink, hsink']
    decide
  · rw [hlate, hlate']
    decide

end Rendezvous

end Diagnostics
