import Diagnostics.Proofs.Sink.ClosedForm
import Diagnostics.Proofs.Sink.Interleaving
import Diagnostics.Sink.Session

/-!
# The Accounts of a Session

At every moment of a session each message is in one place. It is pending, or
its producer knows it to be accepted, or to be refused, and the three lists of
a producer, in this order, are the list it began with. What is accepted is in
the sink, what is refused has been noted, and both as often and in the order
that the producers say.

A sink that runs has refused nothing. This is why the lists of a producer stay
in order: the first refusal comes after the last acceptance. And a sink that
was told to stop does not run again, so that what is collected in the end is
what it held when it stopped.

The accounts hold at the start, and every move keeps them.

## Main definitions

* `Producer.said`, `Producer.notes`: A producer's whole list, and what it notes.
* `Sink.Holds`: What a sink has to show for the messages it took.
* `Ending.Fits`: How far the end has come, and the sink.
* `Session.Accounts`: Every message is in one place.

## Theorems

* `Session.Step.accounts`: A move keeps the accounts.
* `Session.Reaches.accounts`: They hold wherever a session can get.
* `Session.Step.of_done`: What can happen when nothing is left to say.
* `Session.Accounts.exists_of_isBroken`: What can bring a sink down.
* `Session.Accounts.collected`: What is collected from a sink that was not
  brought down.
-/

namespace Diagnostics

namespace Producer

/-- All messages of a producer, from the first that was accepted to the last
    that is still pending. -/
def said (producer : Producer) : List Message :=
  producer.accepted ++ producer.refused ++ producer.pending

/-- What a producer has noted, or has to. -/
def notes (producer : Producer) : List Entry :=
  producer.refused.map fun message => .late message.text

end Producer

namespace Sink

/-- What a sink has to show for the messages it took. Its recorder has recorded
    and kept them all, unless one of them could not be rendered. -/
def Holds (r : Recorder) (taken : List Message) : Sink → Prop
  | .running q => q = r.recordAll taken ∧ ∃ counted texts, r.Advances q taken counted texts
  | .stopped q => q = r.recordAll taken ∧ ∃ counted texts, r.Advances q taken counted texts
  | .broken _ => r.policy.prints = true ∧ ∃ message ∈ taken, ¬ r.Renders message

variable {r q : Recorder} {taken : List Message} {sink : Sink}

/-- To take one more message is to hold one more, or to be brought down by it. -/
theorem Holds.ofRecorded (h : (running q).Holds r taken) (message : Message) :
    (ofRecorded (q.record message)).Holds r (taken ++ [message]) := by
  rcases h with ⟨hrun, counted, texts, hadvances⟩
  rcases q.record_cases message with
    ⟨q', counted', texts', hrecord, hadvances'⟩ | ⟨q', hrecord, hopen, hrenders, -⟩
  · -- It is kept, and the run goes on.
    rw [hrecord]
    refine ⟨?_, _, _, hadvances.trans hadvances'⟩
    rw [Recorder.recordAll_append, ← hrun, Recorder.recordAll_cons_of_kept hrecord]
    rfl
  · rw [hrecord]
    -- It could not be rendered, which is noticed only where messages are printed.
    refine ⟨?_, message, List.mem_append_right taken List.mem_cons_self, ?_⟩
    · rw [← hadvances.policy]
      exact (Recorder.isSilent_eq_false_iff.mp hopen).2
    · rwa [hadvances.renders_iff] at hrenders

theorem Holds.close (h : sink.Holds r taken) : sink.close.Holds r taken := by
  cases sink with
  | running q => exact h
  | stopped q => exact h
  | broken q => exact h

theorem isRunning_close (sink : Sink) : sink.close.isRunning = false := by
  cases sink <;> rfl

end Sink

/-- How far the end of a session has come, and what that says of the sink. -/
def Ending.Fits (sink : Sink) : Ending → Prop
  | .awaited => ∀ r, sink ≠ .stopped r
  | .requested => sink.isRunning = false
  | .reached collected => sink.isRunning = false ∧ collected = sink.collect

/-- While the sink runs nobody has told it to stop. -/
theorem Ending.Fits.ofRecorded {ending : Ending} {r : Recorder} (h : ending.Fits (.running r))
    (recorded : Recorded) : ending.Fits (.ofRecorded recorded) := by
  cases ending with
  | awaited =>
      intro q
      cases recorded with
      | kept r' => exact Sink.noConfusion
      | unrenderable r' => exact Sink.noConfusion
  | requested => exact absurd h Bool.noConfusion
  | reached collected => exact absurd h.1 Bool.noConfusion

namespace Session

variable {lists : List (List Message)} {r : Recorder} {s t : Session}

/-- Every message is in one place, for the lists that the producers began with
    and the recorder that the sink began with. -/
structure Accounts (lists : List (List Message)) (r : Recorder) (s : Session) : Prop where
  whole : s.producers.map Producer.said = lists
  unrefused : s.sink.isRunning = true → ∀ producer ∈ s.producers, producer.refused = []
  noted : Interleaves (s.producers.map Producer.notes) s.noted
  held : ∃ taken, Interleaves (s.producers.map Producer.accepted) taken ∧ s.sink.Holds r taken
  ended : s.ending.Fits s.sink

theorem accounts_start (lists : List (List Message)) (r : Recorder) :
    (start lists (.running r)).Accounts lists r := by
  have hnew : ∀ producer ∈ (start lists (.running r)).producers,
      producer.accepted = [] ∧ producer.refused = [] := by
    intro producer hmem
    rcases List.mem_map.mp hmem with ⟨pending, -, rfl⟩
    exact ⟨rfl, rfl⟩
  exact {
    whole := by
      rw [start, List.map_map]
      exact List.map_id lists
    unrefused := fun _ producer hmem => (hnew producer hmem).2
    noted := Interleaves.map_nil fun producer hmem => by
      rw [Producer.notes, (hnew producer hmem).2, List.map_nil]
    held := ⟨[], Interleaves.map_nil fun producer hmem => (hnew producer hmem).1,
      rfl, _, _, Recorder.Advances.refl r⟩
    ended := fun _ => Sink.noConfusion }

theorem Step.accounts (hstep : Step s t) (h : s.Accounts lists r) : t.Accounts lists r := by
  -- By the move: the first two are a producer's, and leave the others as they are.
  cases hstep with
  | @accept left right message pending accepted refused q noted ending =>
      -- The sink runs, so the producer that is accepted has had nothing refused.
      have hunrefused := h.unrefused rfl
      have hrefused : refused = [] :=
        hunrefused ⟨message :: pending, accepted, refused⟩
          (List.mem_append_right left List.mem_cons_self)
      subst hrefused
      rcases h.held with ⟨taken, htaken, hholds⟩
      exact {
        whole := by
          rw [← h.whole, List.map_append, List.map_append, List.map_cons, List.map_cons]
          simp only [Producer.said, List.append_nil, List.append_assoc, List.cons_append,
            List.nil_append]
        unrefused := by
          intro _ producer hmem
          rcases List.mem_append.mp hmem with hleft | hrest
          · exact hunrefused producer (List.mem_append_left _ hleft)
          · rcases List.mem_cons.mp hrest with rfl | hright
            · rfl
            · exact hunrefused producer
                (List.mem_append_right _ (List.mem_cons_of_mem _ hright))
        noted := h.noted.of_map_eq rfl
        -- What the sink holds grows by the message, at the end of the order.
        held := ⟨taken ++ [message], htaken.concat_map rfl, hholds.ofRecorded message⟩
        ended := h.ended.ofRecorded _ }
  | @refuse left right message pending accepted refused sink noted ending hended =>
      rcases h.held with ⟨taken, htaken, hholds⟩
      exact {
        whole := by
          rw [← h.whole, List.map_append, List.map_append, List.map_cons, List.map_cons]
          simp only [Producer.said, List.append_assoc, List.cons_append, List.nil_append]
        -- A sink that refuses no longer runs, so nothing is said of refusals.
        unrefused := fun hrunning => absurd (hended.symm.trans hrunning) Bool.false_ne_true
        noted := h.noted.concat_map (List.map_append ..)
        held := ⟨taken, htaken.of_map_eq rfl, hholds⟩
        ended := h.ended }
  | @close producers sink noted =>
      rcases h.held with ⟨taken, htaken, hholds⟩
      exact {
        whole := h.whole
        unrefused := fun hrunning =>
          absurd (sink.isRunning_close.symm.trans hrunning) Bool.false_ne_true
        noted := h.noted
        held := ⟨taken, htaken, hholds.close⟩
        ended := sink.isRunning_close }
  | @collect producers sink noted =>
      exact { h with ended := ⟨h.ended, rfl⟩ }

theorem Reaches.accounts (hrun : Reaches s t) (h : s.Accounts lists r) : t.Accounts lists r := by
  induction hrun with
  | refl s => exact h
  | step hstep _ ih => exact ih (hstep.accounts h)

/-- When nothing is left to say, the sink is told to stop or is collected, and
    nothing else can happen. -/
theorem Step.of_done (hstep : Step s t)
    (hdone : ∀ producer ∈ s.producers, producer.pending = []) :
    (s.ending = .awaited ∧ t = { s with sink := s.sink.close, ending := .requested }) ∨
      (s.ending = .requested ∧ t = { s with ending := .reached s.sink.collect }) := by
  cases hstep with
  | @accept left right message pending accepted refused =>
      exact absurd (hdone _ (List.mem_append_right left List.mem_cons_self)) (List.cons_ne_nil _ _)
  | @refuse left right message pending accepted refused =>
      exact absurd (hdone _ (List.mem_append_right left List.mem_cons_self)) (List.cons_ne_nil _ _)
  | close => exact Or.inl ⟨rfl, rfl⟩
  | collect => exact Or.inr ⟨rfl, rfl⟩

namespace Accounts

/-- Once nothing is pending, each list is what was accepted and then what was
    refused. -/
theorem split_of_done (h : s.Accounts lists r)
    (hdone : ∀ producer ∈ s.producers, producer.pending = []) :
    s.producers.map (fun producer => producer.accepted ++ producer.refused) = lists := by
  rw [← h.whole]
  refine List.map_congr_left fun producer hmem => ?_
  rw [Producer.said, hdone producer hmem, List.append_nil]

/-- Only a sink that prints is brought down, by a message that one of the
    producers had and that cannot be rendered. -/
theorem exists_of_isBroken (h : s.Accounts lists r) (hbroken : s.sink.isBroken = true) :
    r.policy.prints = true ∧ ∃ list ∈ lists, ∃ message ∈ list, ¬ r.Renders message := by
  rcases h.held with ⟨taken, htaken, hholds⟩
  generalize s.sink = sink at hbroken hholds
  cases sink with
  | running q => exact absurd hbroken Bool.noConfusion
  | stopped q => exact absurd hbroken Bool.noConfusion
  | broken q =>
      -- The message was taken, so it was accepted of one of the producers.
      rcases hholds with ⟨hprints, message, hmem, hrenders⟩
      rcases List.mem_flatten.mp (htaken.perm_flatten.subset hmem) with ⟨list, hlist, hmem⟩
      rcases List.mem_map.mp hlist with ⟨producer, hproducer, rfl⟩
      have hsaid : producer.said ∈ lists := h.whole ▸ List.mem_map_of_mem hproducer
      exact ⟨hprints, producer.said, hsaid, message,
        List.mem_append_left _ (List.mem_append_left _ hmem), hrenders⟩

theorem isBroken_of_renders (h : s.Accounts lists r)
    (hrenders : ∀ list ∈ lists, ∀ message ∈ list, r.Renders message) :
    s.sink.isBroken = false := by
  refine Bool.eq_false_iff.mpr fun hbroken => ?_
  rcases (h.exists_of_isBroken hbroken).2 with ⟨list, hlist, message, hmem, hnot⟩
  exact hnot (hrenders list hlist message hmem)

/-- What is collected from a sink that was not brought down has recorded and
    kept what was accepted, in an order that the producers agree with. -/
theorem collected {collected : Option Recorder} (h : s.Accounts lists r)
    (hreached : s.ending = .reached collected) (hsound : s.sink.isBroken = false) :
    ∃ taken, collected = some (r.recordAll taken).finish ∧
      (r.recordAll taken).finish.kept = r.kept ++ taken ∧
      Interleaves (s.producers.map Producer.accepted) taken := by
  rcases h.held with ⟨taken, htaken, hholds⟩
  have hended := h.ended
  rw [hreached] at hended
  rcases hended with ⟨hstopped, rfl⟩
  -- Where the end is reached the sink no longer runs, and it is not broken.
  generalize s.sink = sink at hsound hstopped hholds
  cases sink with
  | running q => exact absurd hstopped Bool.noConfusion
  | broken q => exact absurd hsound Bool.noConfusion
  | stopped q =>
      rcases hholds with ⟨rfl, counted, texts, hadvances⟩
      have hkept := (hadvances.trans (Recorder.advances_finish _)).kept
      rw [List.append_nil] at hkept
      exact ⟨taken, rfl, hkept, htaken⟩

end Accounts

end Session

end Diagnostics
