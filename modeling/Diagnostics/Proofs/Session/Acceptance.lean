import Diagnostics.Proofs.Session.Rendezvous

/-!
# The Order of Acceptance

A run of a session has an order in which its messages were accepted. It is read
off the steps, of which one kind hands a message over to the worker, and not off
what the sink has kept: whether the two are the same is a question about the
sink.

What can be said of any sink is that it has to show for what was accepted, at
every moment and in that order.

## Main definitions

* `Rendezvous.taken?`: The message that a worker begins to record in a step.
* `Rendezvous.Accepts`: A run, and the messages accepted in it, in order.

## Theorems

* `Rendezvous.Accepts.trans`: What is accepted later comes later.
* `Rendezvous.Step.worker_cases`: What a step does to the worker.
* `Rendezvous.Accepts.holds`: A sink has to show for what was accepted.
-/

namespace Diagnostics

namespace Rendezvous

variable {order : List Message} {r : Recorder} {s t : Rendezvous}

/-- The message that a worker begins to record in a step. -/
def taken? (s t : Rendezvous) : Option Message :=
  match s.worker, t.worker with
  | .resting _, .recording _ message => some message
  | _, _ => none

/-- A run, and the messages that the worker accepts in it, in order. -/
inductive Accepts : Rendezvous → List Message → Rendezvous → Prop
  | refl (s : Rendezvous) : Accepts s [] s
  | step {s t u : Rendezvous} {order : List Message} (h : Step s t) (rest : Accepts t order u) :
      Accepts s ((taken? s t).toList ++ order) u

theorem Accepts.reaches (h : Accepts s order t) : Reaches s t := by
  induction h with
  | refl s => exact .refl s
  | step hstep _ ih => exact .step hstep ih

theorem Accepts.trans {order' : List Message} {u : Rendezvous} (h : Accepts s order t)
    (h' : Accepts t order' u) : Accepts s (order ++ order') u := by
  induction h with
  | refl s => exact h'
  | step hstep _ ih =>
      rw [List.append_assoc]
      exact .step hstep (ih h')

theorem Reaches.exists_accepts (h : Reaches s t) : ∃ order, Accepts s order t := by
  induction h with
  | refl s => exact ⟨[], .refl s⟩
  | step hstep _ ih =>
      rcases ih with ⟨order, hrest⟩
      exact ⟨_, .step hstep hrest⟩

theorem taken?_of_worker_eq (h : t.worker = s.worker) : taken? s t = none := by
  rw [taken?, h]
  cases s.worker <;> rfl

/-- In a step a worker takes a message, or its sink is told to stop, or stays as
    it is. -/
theorem Step.worker_cases (hstep : Step s t) :
    (∃ q message, s.worker = .resting (.running q) ∧ t.worker = .recording q message ∧
      taken? s t = some message) ∨
      taken? s t = none ∧
        (t.worker.sink = s.worker.sink ∨ t.worker.sink = s.worker.sink.close) := by
  cases hstep with
  | call left => exact Or.inr ⟨taken?_of_worker_eq rfl, Or.inl rfl⟩
  | take left => exact Or.inl ⟨_, _, rfl, rfl, rfl⟩
  | record => exact Or.inr ⟨rfl, Or.inl rfl⟩
  | bounce left hended => exact Or.inr ⟨taken?_of_worker_eq rfl, Or.inl rfl⟩
  | note left => exact Or.inr ⟨taken?_of_worker_eq rfl, Or.inl rfl⟩
  | ask => exact Or.inr ⟨taken?_of_worker_eq rfl, Or.inl rfl⟩
  | stop => exact Or.inr ⟨rfl, Or.inr rfl⟩
  | giveUp hended => exact Or.inr ⟨taken?_of_worker_eq rfl, Or.inl rfl⟩
  | join hended => exact Or.inr ⟨taken?_of_worker_eq rfl, Or.inl rfl⟩

/-- So it has more to show for if its worker takes a message, and otherwise what
    it had. -/
theorem Step.holds {taken : List Message} (hstep : Step s t)
    (h : s.worker.sink.Holds r taken) : t.worker.sink.Holds r (taken ++ (taken? s t).toList) := by
  rcases hstep.worker_cases with ⟨q, message, hresting, hrecording, htaken⟩ | ⟨htaken, hsink⟩
  · -- The message that is taken is one more to show for.
    rw [hresting] at h
    rw [hrecording, htaken]
    exact Sink.Holds.ofRecorded h message
  · -- Nothing is taken, and being told to stop loses nothing.
    rw [htaken, Option.toList_none, List.append_nil]
    rcases hsink with hsame | hclosed
    · rwa [hsame]
    · rw [hclosed]
      exact h.close

/-- A sink has to show for all that was accepted. -/
theorem Accepts.holds {taken : List Message} (hrun : Accepts s order t)
    (h : s.worker.sink.Holds r taken) : t.worker.sink.Holds r (taken ++ order) := by
  induction hrun generalizing taken with
  | refl s => rwa [List.append_nil]
  | step hstep _ ih =>
      rw [← List.append_assoc]
      exact ih (hstep.holds h)

end Rendezvous

end Diagnostics
