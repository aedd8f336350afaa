import Diagnostics.Proofs.Sink.Outlet

/-!
# What One Message Does

Everything a recorder does, it does by adding to what it has: messages to those
it keeps, messages to those it counts, texts to those it offers. `Advances`
says what was added, and since what was added first comes first, a run of steps
adds what its steps add, in order.

The error limit is the one thing that is not additive. Below it a recorder is
open, and each message adds itself to all three. The message that reaches the
limit adds a notice too, and from then on a recorder is silent and only keeps.

## Main definitions

* `Counts.ofMessages`, `Counts.addAll`: Counts of many messages.
* `Recorder.rendered`: The texts of the messages that are admitted.
* `Recorder.Renders`: A message can be rendered, if it has to be.
* `Recorder.HitsLimit`: There is an error limit, and so many errors reach it.
* `Recorder.Advances`: What one recorder has more than another.

## Theorems

* `Recorder.Advances.trans`: One step after another adds what both add.
* `Recorder.record_of_silent`: A silent recorder only keeps.
* `Recorder.record_of_below`: An open one below the limit counts and prints.
* `Recorder.record_of_hitsLimit`: The message that reaches the limit is
  followed by a notice.
* `Recorder.record_cases`: Whatever a message is, it is kept, or it is counted
  and cannot be rendered.
-/

namespace Diagnostics

namespace Counts

/-- How many messages there are of each kind. -/
def ofMessages (messages : List Message) : Counts where
  errors := messages.countP Message.isError
  warnings := messages.countP (fun message => !message.isError)

/-- The counts after some more messages. -/
def addAll (counts : Counts) (messages : List Message) : Counts :=
  messages.foldl (fun counts message => counts.add message.kind) counts

theorem addAll_append (counts : Counts) (ms ns : List Message) :
    counts.addAll (ms ++ ns) = (counts.addAll ms).addAll ns := by
  unfold addAll
  rw [List.foldl_append]

theorem addAll_eq (counts : Counts) (messages : List Message) :
    counts.addAll messages =
      { errors := counts.errors + (ofMessages messages).errors
        warnings := counts.warnings + (ofMessages messages).warnings } := by
  induction messages generalizing counts with
  | nil => rfl
  | cons m ms ih =>
      rw [addAll, List.foldl_cons, ← addAll, ih]
      unfold ofMessages
      rw [List.countP_cons, List.countP_cons]
      cases hkind : m.kind with
      | error =>
          have herror : m.isError = true := by rw [Message.isError, hkind]; rfl
          simp only [add, herror]
          congr 1
          · simp only [if_true]
            omega
      | warning =>
          have herror : m.isError = false := by rw [Message.isError, hkind]; rfl
          simp only [add, herror]
          congr 1
          · simp only [Bool.not_false, if_true]
            omega

theorem addAll_empty (messages : List Message) :
    addAll {} messages = ofMessages messages := by
  rw [addAll_eq]
  simp only [Nat.zero_add]

theorem isEmpty_ofMessages_iff (messages : List Message) :
    (ofMessages messages).isEmpty = true ↔ messages = [] := by
  unfold isEmpty ofMessages
  cases messages with
  | nil => simp only [List.countP_nil, BEq.rfl, Bool.and_self]
  | cons m ms =>
      rw [List.countP_cons, List.countP_cons]
      -- Whatever the first message is, one of the two numbers is positive.
      cases m.isError with
      | false =>
          simp only [Bool.not_false, if_true, Nat.reduceBeqDiff, Bool.and_false, reduceCtorEq]
      | true =>
          simp only [if_true, Nat.reduceBeqDiff, Bool.false_and, reduceCtorEq]

end Counts

namespace Recorder

/-- The texts of those messages that the level admits. -/
def rendered (r : Recorder) (messages : List Message) : List String :=
  (messages.filter (fun message => r.options.level.admits message.kind)).filterMap
    (fun message => message.render? r.terminal r.options)

/-- A message can be rendered, if the level admits it. -/
def Renders (r : Recorder) (message : Message) : Prop :=
  r.options.level.admits message.kind = true →
    (message.render? r.terminal r.options).isSome = true

/-- There is an error limit to keep to, and a number of errors reaches it. -/
def HitsLimit (policy : Policy) (options : Options) (errors : Nat) : Prop :=
  policy.limits = true ∧ 0 < options.errorLimit ∧ options.errorLimit ≤ errors

/-- Whether a limit is reached can be decided. -/
instance (policy : Policy) (options : Options) (errors : Nat) :
    Decidable (HitsLimit policy options errors) :=
  inferInstanceAs (Decidable (_ ∧ _ ∧ _))

theorem HitsLimit.mono {policy : Policy} {options : Options} {m n : Nat}
    (h : HitsLimit policy options m) (hmn : m ≤ n) : HitsLimit policy options n :=
  ⟨h.1, h.2.1, Nat.le_trans h.2.2 hmn⟩

theorem atLimit_iff (r : Recorder) :
    r.atLimit = true ↔ HitsLimit r.policy r.options r.counts.errors := by
  unfold atLimit HitsLimit
  rw [Bool.and_eq_true, Bool.and_eq_true, bne_iff_ne, decide_eq_true_iff, and_assoc,
    Nat.pos_iff_ne_zero]

theorem isSilent_eq_false_iff {r : Recorder} :
    r.isSilent = false ↔ r.limitReached = false ∧ r.policy.prints = true := by
  rw [isSilent, Bool.or_eq_false_iff, Bool.not_eq_false']

theorem isSilent_of_limitReached {r : Recorder} (h : r.limitReached = true) :
    r.isSilent = true := by
  rw [isSilent, h, Bool.true_or]

theorem isSilent_of_not_prints {r : Recorder} (h : r.policy.prints = false) :
    r.isSilent = true := by
  rw [isSilent, h, Bool.not_false, Bool.or_true]

/-- Who was silenced by the limit owes no summary. -/
theorem owesSummary_of_limitReached {r : Recorder} (h : r.limitReached = true) :
    r.owesSummary = false := by
  rw [owesSummary, h, Bool.not_true, Bool.and_false, Bool.false_and, Bool.false_and]

/-- What one recorder has more than another, by whose settings it goes:
    messages that it keeps, messages that it counted, and texts. -/
structure Advances (r r' : Recorder) (kept counted : List Message) (texts : List String) :
    Prop where
  policy : r'.policy = r.policy
  options : r'.options = r.options
  terminal : r'.terminal = r.terminal
  faults : r'.outlet.faults = r.outlet.faults
  kept : r'.kept = r.kept ++ kept
  counts : r'.counts = r.counts.addAll counted
  offered : r'.outlet.offered = r.outlet.offered ++ texts
  chunks : r.outlet.faults = .never → r'.outlet.chunks = r.outlet.chunks ++ texts

namespace Advances

variable {r r' r'' : Recorder} {kept kept' counted counted' : List Message}
  {texts texts' : List String}

theorem refl (r : Recorder) : r.Advances r [] [] [] where
  policy := rfl
  options := rfl
  terminal := rfl
  faults := rfl
  kept := (List.append_nil _).symm
  counts := rfl
  offered := (List.append_nil _).symm
  chunks := fun _ => (List.append_nil _).symm

theorem trans (h : r.Advances r' kept counted texts) (h' : r'.Advances r'' kept' counted' texts') :
    r.Advances r'' (kept ++ kept') (counted ++ counted') (texts ++ texts') where
  policy := h'.policy.trans h.policy
  options := h'.options.trans h.options
  terminal := h'.terminal.trans h.terminal
  faults := h'.faults.trans h.faults
  kept := by rw [h'.kept, h.kept, List.append_assoc]
  counts := by rw [h'.counts, h.counts, Counts.addAll_append]
  offered := by rw [h'.offered, h.offered, List.append_assoc]
  chunks := fun hnever => by
    rw [h'.chunks (h.faults.trans hnever), h.chunks hnever, List.append_assoc]

theorem errors (h : r.Advances r' kept counted texts) :
    r'.counts.errors = r.counts.errors + counted.countP Message.isError := by
  rw [h.counts, Counts.addAll_eq]
  rfl

theorem rendered_eq (h : r.Advances r' kept counted texts) (messages : List Message) :
    r'.rendered messages = r.rendered messages := by
  unfold rendered
  rw [h.options, h.terminal]

theorem renders_iff (h : r.Advances r' kept counted texts) (message : Message) :
    r'.Renders message ↔ r.Renders message := by
  unfold Renders
  rw [h.options, h.terminal]

end Advances

theorem advances_print (r : Recorder) {text : String} (htext : text ≠ "") :
    r.Advances (r.print text) [] [] [text] where
  policy := rfl
  options := rfl
  terminal := rfl
  faults := Outlet.faults_emit r.outlet text
  kept := (List.append_nil _).symm
  counts := rfl
  offered := Outlet.offered_emit r.outlet htext
  chunks := fun hnever => Outlet.chunks_emit_of_never hnever htext

/-- What is counted is added to the counts, and nothing is printed yet. -/
theorem advances_count (r : Recorder) (message : Message) :
    r.Advances { r with counts := r.counts.add message.kind } [] [message] [] :=
  { Advances.refl r with counts := rfl }

theorem advances_keep (r : Recorder) (message : Message) :
    r.Advances (r.keep message) [message] [] [] :=
  { Advances.refl r with kept := rfl }

/-- The notice is all that reaching the limit adds. -/
theorem advances_enforceLimit {r : Recorder} (h : r.atLimit = true) :
    r.Advances r.enforceLimit [] [] [r.limitNotice] := by
  rw [enforceLimit, if_pos h]
  -- Nothing that `Advances` speaks of looks at the journal or the end of printing.
  have hnoted : r.Advances
      ({ r with limitReached := true }.note (.limitReached r.options.errorLimit)) [] [] [] :=
    { Advances.refl r with }
  exact hnoted.trans (advances_print _ (limitNotice_ne_empty r))

theorem rendered_append (r : Recorder) (ms ns : List Message) :
    r.rendered (ms ++ ns) = r.rendered ms ++ r.rendered ns := by
  unfold rendered
  rw [List.filter_append, List.filterMap_append]

theorem rendered_singleton_of_admits {r : Recorder} {message : Message} {text : String}
    (hadmits : r.options.level.admits message.kind = true)
    (htext : message.render? r.terminal r.options = some text) :
    r.rendered [message] = [text] := by
  rw [rendered, List.filter_cons, if_pos hadmits, List.filter_nil]
  simp only [List.filterMap_cons, htext, List.filterMap_nil]

theorem rendered_singleton_of_not_admits {r : Recorder} {message : Message}
    (hadmits : ¬ r.options.level.admits message.kind = true) : r.rendered [message] = [] := by
  rw [rendered, List.filter_cons, if_neg hadmits, List.filter_nil, List.filterMap_nil]

/-- A silent recorder only keeps, whether or not it could render. -/
theorem record_of_silent {r : Recorder} (h : r.isSilent = true) (message : Message) :
    r.record message = .kept (r.keep message) := by
  rw [record, if_pos h]

/-- An open recorder counts and prints, looks at the limit, and keeps. -/
theorem record_of_open {r : Recorder} {message : Message} (hopen : r.isSilent = false)
    (hrenders : r.Renders message) :
    ∃ printed : Recorder, r.Advances printed [] [message] (r.rendered [message]) ∧
      printed.limitReached = r.limitReached ∧
      r.record message = .kept (printed.enforceLimit.keep message) := by
  have hcount := advances_count r message
  by_cases hadmits : r.options.level.admits message.kind = true
  · -- Printed, with a text.
    rcases Option.isSome_iff_exists.mp (hrenders hadmits) with ⟨text, htext⟩
    refine ⟨({ r with counts := r.counts.add message.kind } : Recorder).print text, ?_, rfl, ?_⟩
    · rw [rendered_singleton_of_admits hadmits htext]
      exact hcount.trans (advances_print _ (Message.render?_ne_empty htext))
    · simp only [record, hopen, Bool.false_eq_true, if_false, hadmits, if_true, htext]
  · -- Below the level, and only counted.
    refine ⟨{ r with counts := r.counts.add message.kind }, ?_, rfl, ?_⟩
    · rw [rendered_singleton_of_not_admits hadmits]
      exact hcount
    · simp only [record, hopen, Bool.false_eq_true, if_false, hadmits]

theorem hitsLimit_counted_iff {r printed : Recorder} {message : Message} {texts : List String}
    (h : r.Advances printed [] [message] texts) :
    printed.atLimit = true ↔
      HitsLimit r.policy r.options (r.counts.errors + [message].countP Message.isError) := by
  rw [atLimit_iff, h.policy, h.options, h.errors]

/-- Below the limit a message is all that it adds. -/
theorem record_of_below {r : Recorder} {message : Message} (hopen : r.isSilent = false)
    (hrenders : r.Renders message)
    (hbelow : ¬ HitsLimit r.policy r.options
      (r.counts.errors + [message].countP Message.isError)) :
    ∃ r', r.record message = .kept r' ∧
      r.Advances r' [message] [message] (r.rendered [message]) ∧ r'.isSilent = false := by
  rcases record_of_open hopen hrenders with ⟨printed, hprinted, hreached, hrecord⟩
  have hlimit : ¬ printed.atLimit = true := fun h =>
    hbelow ((hitsLimit_counted_iff hprinted).mp h)
  have hsame : printed.enforceLimit = printed := by
    rw [enforceLimit, if_neg hlimit]
  rw [hsame] at hrecord
  have hadvances := hprinted.trans (advances_keep printed message)
  simp only [List.append_nil, List.nil_append] at hadvances
  refine ⟨_, hrecord, hadvances, ?_⟩
  -- Open is as before: neither the policy nor the end of printing has changed.
  rw [← hopen, isSilent, isSilent, hadvances.policy]
  exact congrArg (· || !r.policy.prints) hreached

/-- The message that reaches the limit adds a notice after it, with the counts
    that reach it, and ends the printing. -/
theorem record_of_hitsLimit {r : Recorder} {message : Message} (hopen : r.isSilent = false)
    (hrenders : r.Renders message)
    (hlimit : HitsLimit r.policy r.options
      (r.counts.errors + [message].countP Message.isError)) :
    ∃ r', r.record message = .kept r' ∧
      r.Advances r' [message] [message] (r.rendered [message] ++ [r'.limitNotice]) ∧
      r'.limitReached = true := by
  rcases record_of_open hopen hrenders with ⟨printed, hprinted, -, hrecord⟩
  have hat := (hitsLimit_counted_iff hprinted).mpr hlimit
  have hclosed := advances_enforceLimit hat
  have hadvances := (hprinted.trans hclosed).trans (advances_keep _ message)
  -- The notice is worded from the counts, which are the same before and after.
  have hnotice : (printed.enforceLimit.keep message).limitNotice = printed.limitNotice := by
    unfold limitNotice
    exact congrArg (fun counts : Counts => counts.text ++ _) hclosed.counts
  simp only [List.append_nil, List.nil_append, ← hnotice] at hadvances
  refine ⟨_, hrecord, hadvances, ?_⟩
  rw [enforceLimit, if_pos hat]
  rfl

/-- A message that would have to be rendered and cannot be is counted. Nothing
    else happens. -/
theorem record_of_not_renders {r : Recorder} {message : Message} (hopen : r.isSilent = false)
    (hrenders : ¬ r.Renders message) :
    r.record message = .unrenderable { r with counts := r.counts.add message.kind } := by
  rw [Renders, Classical.not_imp, Bool.not_eq_true, Option.isSome_eq_false_iff,
    Option.isNone_iff_eq_none] at hrenders
  simp only [record, hopen, Bool.false_eq_true, if_false, hrenders.1, if_true, hrenders.2]

/-- What one message can do, whatever it is. It is kept, with what it adds to
    the counts and to the output; or the recorder was open and could not render
    it, and then it is counted and no more. -/
theorem record_cases (r : Recorder) (message : Message) :
    (∃ r' counted texts, r.record message = .kept r' ∧ r.Advances r' [message] counted texts) ∨
      ∃ r', r.record message = .unrenderable r' ∧ r.isSilent = false ∧ ¬ r.Renders message ∧
        r.Advances r' [] [message] [] := by
  -- In the order in which recording asks: is it silent, can it render, is the limit hit?
  by_cases hopen : r.isSilent = false
  · by_cases hrenders : r.Renders message
    · by_cases hlimit : HitsLimit r.policy r.options
        (r.counts.errors + [message].countP Message.isError)
      · rcases record_of_hitsLimit hopen hrenders hlimit with ⟨r', hrecord, hadvances, -⟩
        exact Or.inl ⟨r', _, _, hrecord, hadvances⟩
      · rcases record_of_below hopen hrenders hlimit with ⟨r', hrecord, hadvances, -⟩
        exact Or.inl ⟨r', _, _, hrecord, hadvances⟩
    · exact Or.inr ⟨_, record_of_not_renders hopen hrenders, hopen, hrenders,
        advances_count r message⟩
  · rw [Bool.not_eq_false] at hopen
    exact Or.inl ⟨_, _, _, record_of_silent hopen message, advances_keep r message⟩

end Recorder

end Diagnostics
