import Diagnostics.Proofs.Session.Rendezvous

/-!
# Sessions in Sequence

As long as nobody has told the sink to stop, a session is nothing but messages
handed over one after the other. Once the producers have nothing left to say it
has come to where a single sender would have come to, who sends all their
messages in the order in which they were handed over or refused. Nothing is
asked of the messages for that. One that brings the sink down does so at its
place in the order, and those behind it are refused there as well.

Then the sink is told to stop and is collected, and there is only one way in
which this can go.

A single producer leaves no choice of order, so all its sessions end alike. And
whoever the producers are, nobody is ever stuck: there is a session that ends.

## Main definitions

* `Rendezvous.EndsAt`: The end of a run in which all producers are done first.

## Theorems

* `Sink.replay_of_renders`: One sender, and messages that can be rendered.
* `Session.Reaches.exists_replay`: A session in sequence.
* `Session.Reaches.finalized`: The end of it.
* `Rendezvous.EndsAt.exists_replay`: The same for parties that take their own
  steps.
* `Rendezvous.EndsAt.eq_replay`: With one producer there is one outcome.
* `Rendezvous.exists_endsAt`: There is an outcome.
-/

namespace Diagnostics

namespace Interleaves

/-- A single list is merged with nothing. -/
theorem eq_of_singleton {α : Type} {list merged : List α} (h : Interleaves [list] merged) :
    merged = list := by
  generalize hlists : [list] = lists at h
  induction h generalizing list with
  | done hempty =>
      rw [hempty list (hlists ▸ List.mem_cons_self)]
  | @take left right x rest merged _ ih =>
      -- The list that the first element is taken from is the only one.
      rcases List.singleton_eq_append_iff.mp hlists with ⟨rfl, hright⟩ | ⟨-, hright⟩
      · rw [List.cons.injEq] at hright
        rcases hright with ⟨rfl, rfl⟩
        rw [ih rfl]
      · exact absurd hright (List.cons_ne_nil _ _)

end Interleaves

namespace Sink

/-- A sink that does not run refuses a message and stays as it is. -/
theorem report_of_not_running {sink : Sink} (h : sink.isRunning = false) (message : Message) :
    sink.report message = (sink, [.late message.text]) := by
  cases sink with
  | running r => exact absurd h Bool.noConfusion
  | stopped r => rfl
  | broken r => rfl

/-- A sink that is given nothing it would have to render and cannot takes all of
    it, and nothing is noted. -/
theorem replay_of_renders {r : Recorder} {messages : List Message}
    (h : r.policy.prints = true → ∀ message ∈ messages, r.Renders message) :
    (running r).replay messages = (running (r.recordAll messages), []) ∧
      (running (r.recordAll messages)).Holds r messages := by
  induction messages generalizing r with
  | nil => exact ⟨rfl, rfl, _, _, .refl r⟩
  | cons message rest ih =>
      -- Keeping the message goes on with the rest, and the other outcome is excluded.
      rcases r.record_cases message with
        ⟨r', counted, texts, hrecord, hadvances⟩ | ⟨r', -, hopen, hrenders, -⟩
      · have hothers : r'.policy.prints = true → ∀ other ∈ rest, r'.Renders other := by
          intro hprints other hmem
          rw [hadvances.policy] at hprints
          exact (hadvances.renders_iff other).mpr (h hprints other (List.mem_cons_of_mem _ hmem))
        rcases ih hothers with ⟨hrest, -, counted', texts', hadvances'⟩
        -- The message is handed over and kept, so there is nothing to note.
        have hreport : (running r).report message = (running r', []) := by
          rw [report, send, hrecord]
          rfl
        rw [Recorder.recordAll_cons_of_kept hrecord]
        refine ⟨?_, (Recorder.recordAll_cons_of_kept hrecord rest).symm, _, _,
          hadvances.trans hadvances'⟩
        rw [replay, hreport, hrest]
        rfl
      · have hprints := (Recorder.isSilent_eq_false_iff.mp hopen).2
        exact absurd (h hprints message List.mem_cons_self) hrenders

end Sink

namespace Session

variable {s t : Session}

theorem pending_start (lists : List (List Message)) (sink : Sink) :
    (start lists sink).producers.map Producer.pending = lists := by
  rw [start, List.map_map]
  exact List.map_id lists

/-- Nobody takes back that the sink was told to stop. -/
theorem Reaches.awaited (hrun : Reaches s t) (h : t.ending = .awaited) :
    s.ending = .awaited := by
  induction hrun with
  | refl s => exact h
  | step hstep _ ih =>
      have hnext := ih h
      -- Of the four moves two are about the end, and one of them has to come first.
      cases hstep with
      | accept => exact hnext
      | refuse => exact hnext
      | close => rfl
      | collect => exact absurd hnext Ending.noConfusion

/-- A session that nobody has closed, and in which nothing is left to say, is
    where handing over everything in some order leads. -/
theorem Reaches.exists_replay (hrun : Reaches s t) (hawaited : t.ending = .awaited)
    (hdone : ∀ producer ∈ t.producers, producer.pending = []) :
    ∃ order, Interleaves (s.producers.map Producer.pending) order ∧
      (s.sink.replay order).1 = t.sink ∧ s.noted ++ (s.sink.replay order).2 = t.noted := by
  -- From the front: the first move puts its message before the order of the rest.
  induction hrun with
  | refl s =>
      refine ⟨[], Interleaves.map_nil hdone, rfl, List.append_nil _⟩
  | @step s t u hstep hrest ih =>
      rcases ih hawaited hdone with ⟨order, horder, hsink, hnoted⟩
      cases hstep with
      | @accept left right message pending accepted refused r noted ending =>
          refine ⟨message :: order, ?_, hsink, hnoted⟩
          rw [List.map_append, List.map_cons] at horder ⊢
          exact .take horder
      | @refuse left right message pending accepted refused sink noted ending hended =>
          have hreport := Sink.report_of_not_running hended message
          refine ⟨message :: order, ?_, ?_, ?_⟩
          · rw [List.map_append, List.map_cons] at horder ⊢
            exact .take horder
          · rw [Sink.replay, hreport]
            exact hsink
          · rw [Sink.replay, hreport, ← List.append_assoc]
            exact hnoted
      | close => exact absurd (hrest.awaited hawaited) Ending.noConfusion
      | collect => exact absurd (hrest.awaited hawaited) Ending.noConfusion

/-- A session in which nothing is left to say ends in one way. -/
theorem Reaches.finalized {collected : Option Recorder} (hrun : Reaches s t)
    (hdone : ∀ producer ∈ s.producers, producer.pending = []) (hawaited : s.ending = .awaited)
    (hreached : t.ending = .reached collected) :
    collected = s.sink.finalize ∧ t.sink = s.sink.close ∧ t.noted = s.noted := by
  -- Two moves are made and a third one is not possible.
  cases hrun with
  | refl => exact absurd (hawaited.symm.trans hreached) Ending.noConfusion
  | @step _ u _ hclose hrun =>
      have hclosed : u = { s with sink := s.sink.close, ending := .requested } :=
        (hclose.of_done hdone).elim And.right
          fun h => absurd (hawaited.symm.trans h.1) Ending.noConfusion
      subst hclosed
      cases hrun with
      | refl => exact absurd hreached Ending.noConfusion
      | @step _ v _ hcollect hrun =>
          have hcollected :
              v = { s with sink := s.sink.close, ending := .reached s.sink.close.collect } :=
            (hcollect.of_done hdone).elim (fun h => absurd h.1 Ending.noConfusion) And.right
          subst hcollected
          cases hrun with
          | refl => exact ⟨(Ending.reached.inj hreached).symm, rfl, rfl⟩
          | step hmore _ =>
              exact (hmore.of_done hdone).elim (fun h => absurd h.1 Ending.noConfusion)
                fun h => absurd h.1 Ending.noConfusion

end Session

namespace Rendezvous

variable {lists : List (List Message)} {messages : List Message} {sink : Sink}
  {s t : Rendezvous} {collected : Option Recorder}

/-- A run in which all producers are done before the sink is finalized, with the
    state in which finalizing returned, and what it returned. -/
def EndsAt (lists : List (List Message)) (sink : Sink) (t : Rendezvous)
    (collected : Option Recorder) : Prop :=
  ∃ s, Reaches (start lists sink) s ∧ s.AllDone ∧ s.finalizer = .idle ∧
    Reaches s t ∧ t.finalizer = .returned collected

/-- The order in which messages were handed over or refused says where the
    parties are when all producers are done. -/
theorem Reaches.exists_replay (hrun : Reaches (start lists sink) s) (hdone : s.AllDone)
    (hidle : s.finalizer = .idle) :
    ∃ order, Interleaves lists order ∧ s.worker.sink = (sink.replay order).1 ∧
      s.noted = (sink.replay order).2 := by
  have hmoves := (hrun.session (sound_start lists sink)).1
  rw [session_start] at hmoves
  rcases hmoves.exists_replay (congrArg Finalizer.ending hidle) (pending_of_allDone hdone) with
    ⟨order, horder, hsink, hnoted⟩
  rw [Session.pending_start] at horder
  exact ⟨order, horder, hsink.symm, hnoted.symm⟩

/-- From there on there is only one way to go. -/
theorem Reaches.finalized (hrun : Reaches s t) (hsound : Sound s.callers s.worker)
    (hdone : s.AllDone) (hidle : s.finalizer = .idle)
    (hreturned : t.finalizer = .returned collected) :
    collected = s.worker.sink.finalize ∧ t.worker.sink = s.worker.sink.close ∧
      t.noted = s.noted :=
  (hrun.session hsound).1.finalized (pending_of_allDone hdone) (congrArg Finalizer.ending hidle)
    (congrArg Finalizer.ending hreturned)

/-- What such a run comes to is what one sender comes to, who sends all messages
    in the order in which they were handed over or refused. -/
theorem EndsAt.exists_replay (h : EndsAt lists sink t collected) :
    ∃ order, Interleaves lists order ∧ collected = (sink.replay order).1.finalize ∧
      t.worker.sink = (sink.replay order).1.close ∧ t.noted = (sink.replay order).2 := by
  rcases h with ⟨s, hrun, hdone, hidle, hend, hreturned⟩
  rcases hrun.exists_replay hdone hidle with ⟨order, horder, hsink, hnoted⟩
  have hsound := (hrun.session (sound_start lists sink)).2
  rcases hend.finalized hsound hdone hidle hreturned with ⟨hcollected, hclosed, hsame⟩
  rw [hsink] at hcollected hclosed
  exact ⟨order, horder, hcollected, hclosed, hsame.trans hnoted⟩

/-- A single producer leaves no choice. -/
theorem EndsAt.eq_replay (h : EndsAt [messages] sink t collected) :
    collected = (sink.replay messages).1.finalize ∧
      t.worker.sink = (sink.replay messages).1.close ∧ t.noted = (sink.replay messages).2 := by
  rcases h.exists_replay with ⟨order, horder, h⟩
  rwa [horder.eq_of_singleton] at h

theorem Reaches.trans {u : Rendezvous} (h : Reaches s t) (h' : Reaches t u) : Reaches s u := by
  induction h with
  | refl => exact h'
  | step hstep _ ih => exact .step hstep (ih h')

section Progress

variable (left right : List Caller) (sink : Sink) (noted : List Entry)

/-- A producer has its next message taken and recorded, or refused and noted,
    while the others wait. -/
theorem exists_reaches_next (message : Message) (pending accepted refused : List Message) :
    ∃ accepted' refused' sink' noted', Reaches
      ⟨left ++ ⟨.idle, ⟨message :: pending, accepted, refused⟩⟩ :: right, .resting sink, noted,
        .idle⟩
      ⟨left ++ ⟨.idle, ⟨pending, accepted', refused'⟩⟩ :: right, .resting sink', noted',
        .idle⟩ := by
  cases sink with
  | running r =>
      -- The sink runs: three steps, of which the worker takes part in two.
      exact ⟨accepted ++ [message], refused, _, _,
        .step (.call left) <| .step (.take left) <| .step .record <| .refl _⟩
  | stopped r =>
      -- It does not run: the message comes back and is noted.
      exact ⟨accepted, refused ++ [message], _, _,
        .step (.call left) <| .step (.bounce left rfl) <| .step (.note left) <| .refl _⟩
  | broken r =>
      exact ⟨accepted, refused ++ [message], _, _,
        .step (.call left) <| .step (.bounce left rfl) <| .step (.note left) <| .refl _⟩

/-- A producer goes on until it is done. -/
theorem exists_reaches_isDone (pending accepted refused : List Message) :
    ∃ caller sink' noted', caller.IsDone ∧ Reaches
      ⟨left ++ ⟨.idle, ⟨pending, accepted, refused⟩⟩ :: right, .resting sink, noted, .idle⟩
      ⟨left ++ caller :: right, .resting sink', noted', .idle⟩ := by
  induction pending generalizing accepted refused sink noted with
  | nil => exact ⟨_, _, _, ⟨rfl, rfl⟩, .refl _⟩
  | cons message pending ih =>
      rcases exists_reaches_next left right sink noted message pending accepted refused with
        ⟨accepted', refused', sink', noted', hnext⟩
      rcases ih sink' noted' accepted' refused' with ⟨caller, sink'', noted'', hdone, hrest⟩
      exact ⟨caller, sink'', noted'', hdone, hnext.trans hrest⟩

/-- One producer after the other goes on until it is done. -/
theorem exists_reaches_allDone (hleft : ∀ caller ∈ left, caller.IsDone)
    (lists : List (List Message)) :
    ∃ callers sink' noted', (∀ caller ∈ callers, caller.IsDone) ∧ Reaches
      ⟨left ++ lists.map fun pending => ⟨.idle, { pending }⟩, .resting sink, noted, .idle⟩
      ⟨callers, .resting sink', noted', .idle⟩ := by
  induction lists generalizing left sink noted with
  | nil =>
      refine ⟨left, sink, noted, hleft, ?_⟩
      rw [List.map_nil, List.append_nil]
      exact .refl _
  | cons pending rest ih =>
      rcases exists_reaches_isDone left (rest.map fun pending => ⟨.idle, { pending }⟩) sink noted
        pending [] [] with ⟨caller, sink', noted', hdone, hfirst⟩
      -- Who is done joins those on the left, who take no more steps.
      have hgrown : ∀ other ∈ left ++ [caller], other.IsDone :=
        List.forall_mem_append.mpr ⟨hleft, List.forall_mem_singleton.mpr hdone⟩
      rcases ih (left ++ [caller]) sink' noted' hgrown with
        ⟨callers, sink'', noted'', hall, hothers⟩
      rw [List.append_assoc] at hothers
      exact ⟨callers, sink'', noted'', hall, hfirst.trans hothers⟩

/-- A sink can be finalized once its worker rests. -/
theorem reaches_returned (callers : List Caller) :
    Reaches ⟨callers, .resting sink, noted, .idle⟩
      ⟨callers, .resting sink.close, noted, .returned sink.finalize⟩ := by
  cases sink with
  | running r => exact .step .ask <| .step .stop <| .step (.join rfl) <| .refl _
  | stopped r => exact .step .ask <| .step (.giveUp rfl) <| .step (.join rfl) <| .refl _
  | broken r => exact .step .ask <| .step (.giveUp rfl) <| .step (.join rfl) <| .refl _

end Progress

/-- There is always a run that ends, whatever the messages. -/
theorem exists_endsAt (lists : List (List Message)) (sink : Sink) :
    ∃ t collected, EndsAt lists sink t collected := by
  rcases exists_reaches_allDone [] sink [] (fun _ hmem => absurd hmem List.not_mem_nil) lists with
    ⟨callers, sink', noted, hdone, hrun⟩
  exact ⟨_, _, _, hrun, hdone, rfl, reaches_returned sink' noted callers, rfl⟩

end Rendezvous

end Diagnostics
