import Diagnostics.Proofs.Session.Sequential

/-!
# Sessions that are Played

`Session.play` runs a session by a list of turns. A turn is a move of the
session or nothing at all, so whatever is played could have happened. And
whatever can happen is played by some list of turns, as far as one can tell from
the outside: for every order in which the producers' messages can be merged
there is a list of turns that hands them over in that order.

That all producers are done in the end does not depend on the list. Those who
still have something to say get their turns after it.

## Theorems

* `Session.produce_append_cons`: A turn of a producer with something to say.
* `Session.reaches_play`: What is played is a run.
* `Session.done_play`: All producers are done after it.
* `Session.exists_turns`: Each order of the messages can be played.
* `Session.exists_playOut_iff`: The outcomes of all plays.
-/

namespace Diagnostics

namespace Session

variable {s t u : Session} {lists : List (List Message)} {sink : Sink} {merged : List Message}

theorem Reaches.trans (h : Reaches s t) (h' : Reaches t u) : Reaches s u := by
  induction h with
  | refl => exact h'
  | step hstep _ ih => exact .step hstep (ih h')

section Turn

variable (left right : List Producer) (message : Message)
  (pending accepted refused : List Message) (sink : Sink) (noted : List Entry) (ending : Ending)

/-- A producer with something to say hands over its next message, or has it
    refused. -/
theorem produce_append_cons :
    produce ⟨left ++ ⟨message :: pending, accepted, refused⟩ :: right, sink, noted, ending⟩
        left.length =
      ⟨left ++ (if sink.isRunning then ⟨pending, accepted ++ [message], refused⟩
          else ⟨pending, accepted, refused ++ [message]⟩) :: right,
        (sink.report message).1, noted ++ (sink.report message).2, ending⟩ := by
  rw [produce, List.getElem?_append_right (Nat.le_refl _), Nat.sub_self, List.getElem?_cons_zero]
  simp only [List.set_append_right _ _ (Nat.le_refl _), Nat.sub_self, List.set_cons_zero]

/-- That is a move. -/
theorem step_produce :
    Step ⟨left ++ ⟨message :: pending, accepted, refused⟩ :: right, sink, noted, ending⟩
      (produce ⟨left ++ ⟨message :: pending, accepted, refused⟩ :: right, sink, noted, ending⟩
        left.length) := by
  rw [produce_append_cons]
  cases sink with
  | running r =>
      rw [show (Sink.report (.running r) message).2 = [] from rfl, List.append_nil]
      exact .accept
  | stopped r => exact .refuse rfl
  | broken r => exact .refuse rfl

end Turn

/-- A turn is a move or nothing. -/
theorem produce_cases (s : Session) (i : Nat) : s.produce i = s ∨ Step s (s.produce i) := by
  rcases hproducer : s.producers[i]? with _ | ⟨pending, accepted, refused⟩
  · -- Nobody has that number, or whoever has it has nothing to say.
    rw [produce, hproducer]
    exact Or.inl rfl
  · cases pending with
    | nil =>
        rw [produce, hproducer]
        exact Or.inl rfl
    | cons message pending =>
        -- The producer stands between those before and those after it.
        rcases List.getElem?_eq_some_iff.mp hproducer with ⟨hlt, hget⟩
        have hcut : s.producers = s.producers.take i ++
            ⟨message :: pending, accepted, refused⟩ :: s.producers.drop (i + 1) := by
          rw [← hget, ← List.drop_eq_getElem_cons hlt, List.take_append_drop]
        have hstep := step_produce (s.producers.take i) (s.producers.drop (i + 1)) message pending
          accepted refused s.sink s.noted s.ending
        rw [List.length_take_of_le (Nat.le_of_lt hlt), ← hcut] at hstep
        exact Or.inr hstep

theorem ending_produce (s : Session) (i : Nat) : (s.produce i).ending = s.ending := by
  rcases hproducer : s.producers[i]? with _ | ⟨pending, accepted, refused⟩
  · rw [produce, hproducer]
  · cases pending with
    | nil => rw [produce, hproducer]
    | cons message pending => rw [produce, hproducer]

theorem reaches_foldl_produce (s : Session) (order : List Nat) :
    Reaches s (order.foldl produce s) ∧ (order.foldl produce s).ending = s.ending := by
  induction order generalizing s with
  | nil => exact ⟨.refl s, rfl⟩
  | cons i order ih =>
      rcases ih (s.produce i) with ⟨hrest, hending⟩
      refine ⟨?_, hending.trans (ending_produce s i)⟩
      -- A turn that is no move leaves the session where it is.
      rcases produce_cases s i with hsame | hmove
      · rw [hsame] at hrest
        rwa [List.foldl_cons, hsame]
      · exact .step hmove hrest

/-- What is played is a run, and nobody has told the sink to stop in it. -/
theorem reaches_play (s : Session) (order : List Nat) :
    Reaches s (s.play order) ∧ (s.play order).ending = s.ending := by
  rcases reaches_foldl_produce s order with ⟨hfirst, hending⟩
  rcases reaches_foldl_produce (order.foldl produce s) (order.foldl produce s).turns with
    ⟨hrest, hending'⟩
  exact ⟨hfirst.trans hrest, hending'.trans hending⟩

section Done

variable (left right : List Producer) (sink : Sink) (noted : List Entry) (ending : Ending)

/-- A producer that gets a turn for each message is done after them. -/
theorem exists_of_turns (pending accepted refused : List Message) :
    ∃ producer sink' noted', producer.pending = [] ∧
      (List.replicate pending.length left.length).foldl produce
          ⟨left ++ ⟨pending, accepted, refused⟩ :: right, sink, noted, ending⟩ =
        ⟨left ++ producer :: right, sink', noted', ending⟩ := by
  induction pending generalizing accepted refused sink noted with
  | nil => exact ⟨⟨[], accepted, refused⟩, sink, noted, rfl, rfl⟩
  | cons message pending ih =>
      rw [List.length_cons, List.replicate_succ, List.foldl_cons, produce_append_cons]
      -- Taken or refused, the message is no longer pending.
      cases sink.isRunning with
      | false => exact ih _ _ accepted (refused ++ [message])
      | true => exact ih _ _ (accepted ++ [message]) refused

/-- And if they all do, one after the other, they are all done. -/
theorem done_of_turns (hleft : ∀ producer ∈ left, producer.pending = []) (rest : List Producer) :
    ∀ producer ∈ (((rest.zipIdx left.length).flatMap fun (producer, i) =>
        List.replicate producer.pending.length i).foldl produce
          ⟨left ++ rest, sink, noted, ending⟩).producers, producer.pending = [] := by
  induction rest generalizing left sink noted with
  | nil =>
      rw [List.append_nil]
      exact hleft
  | cons producer rest ih =>
      rcases producer with ⟨pending, accepted, refused⟩
      rcases exists_of_turns left rest sink noted ending pending accepted refused with
        ⟨producer, sink', noted', hdone, hturns⟩
      -- Who has had all of its turns joins those on the left, whom no later turn is for.
      have hgrown : ∀ other ∈ left ++ [producer], other.pending = [] :=
        List.forall_mem_append.mpr ⟨hleft, List.forall_mem_singleton.mpr hdone⟩
      have hothers := ih (left ++ [producer]) sink' noted' hgrown
      rw [List.length_append, List.length_singleton, List.append_assoc] at hothers
      rw [List.zipIdx_cons, List.flatMap_cons, List.foldl_append, hturns]
      exact hothers

end Done

/-- All producers are done after a play. -/
theorem done_play (s : Session) (order : List Nat) :
    ∀ producer ∈ (s.play order).producers, producer.pending = [] :=
  done_of_turns [] _ _ _ (fun _ hmem => absurd hmem List.not_mem_nil) _

/-- Who is done gets no turns. -/
theorem turns_of_done (h : ∀ producer ∈ s.producers, producer.pending = []) : s.turns = [] := by
  rw [turns, List.flatMap_eq_nil_iff]
  rintro ⟨producer, i⟩ hmem
  show List.replicate producer.pending.length i = []
  rw [h producer (List.fst_mem_of_mem_zipIdx hmem)]
  rfl

/-- Each order in which the messages of the producers can be merged is played by
    some turns. -/
theorem exists_turns (h : Interleaves (s.producers.map Producer.pending) merged) :
    ∃ order : List Nat, (order.foldl produce s).sink = (s.sink.replay merged).1 ∧
      ∀ producer ∈ (order.foldl produce s).producers, producer.pending = [] := by
  generalize hlists : s.producers.map Producer.pending = lists at h
  induction h generalizing s with
  | done hempty =>
      -- Nothing is pending, and no turn is needed.
      refine ⟨[], rfl, fun producer hmem => ?_⟩
      exact hempty producer.pending (hlists ▸ List.mem_map_of_mem hmem)
  | @take before after message pending merged _ ih =>
      -- The list that the first message is taken from is a producer's.
      rcases s with ⟨producers, sink, noted, ending⟩
      rcases List.map_eq_append_iff.mp hlists with ⟨left, others, rfl, rfl, hothers⟩
      rcases List.map_eq_cons_iff.mp hothers with
        ⟨⟨_, accepted, refused⟩, right, rfl, rfl, rfl⟩
      have hturn := produce_append_cons left right message pending accepted refused sink noted
        ending
      have hpending : (produce ⟨left ++ ⟨message :: pending, accepted, refused⟩ :: right, sink,
          noted, ending⟩ left.length).producers.map Producer.pending =
            left.map Producer.pending ++ pending :: right.map Producer.pending := by
        rw [hturn, List.map_append, List.map_cons]
        cases sink.isRunning <;> rfl
      rcases ih hpending with ⟨order, hsink, hdone⟩
      rw [congrArg Session.sink hturn] at hsink
      exact ⟨left.length :: order, hsink, hdone⟩

theorem collected_playOut (hawaited : s.ending = .awaited) (order : List Nat) :
    (s.playOut order).collected = (s.play order).sink.finalize := by
  rw [playOut, close, (reaches_play s order).2.trans hawaited]
  rfl

/-- The outcomes of all plays over a sink that is then closed and collected are
    those of one sender, over all orders of the messages. -/
theorem exists_playOut_iff {collected : Option Recorder} :
    (∃ order, ((start lists sink).playOut order).collected = collected) ↔
      ∃ merged, Interleaves lists merged ∧ collected = (sink.replay merged).1.finalize := by
  constructor
  · rintro ⟨order, rfl⟩
    -- What is played is a run without an end, which is one sender in some order.
    rcases reaches_play (start lists sink) order with ⟨hrun, hending⟩
    rcases hrun.exists_replay hending (done_play _ order) with ⟨merged, hmerged, hsink, -⟩
    rw [pending_start] at hmerged
    rw [collected_playOut rfl, ← hsink]
    exact ⟨merged, hmerged, rfl⟩
  · rintro ⟨merged, hmerged, rfl⟩
    rw [← pending_start lists sink] at hmerged
    -- The turns of that order leave nothing to say, so the play adds none.
    rcases exists_turns hmerged with ⟨order, hsink, hdone⟩
    refine ⟨order, ?_⟩
    rw [collected_playOut rfl, play, turns_of_done hdone, List.foldl_nil, hsink]
    rfl

end Session

end Diagnostics
