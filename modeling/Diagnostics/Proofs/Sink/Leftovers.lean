import Diagnostics.Proofs.Sink.Quiet
import Mathlib.Data.List.Induction

/-!
# What Unrenderable Messages Leave Behind

A message that has to be printed and cannot be rendered is noticed late: it has
been counted by then, and everything that should follow does not happen. A
recorder that goes on from there is in a state that no run of good messages
reaches. Its counts may have passed the limit without the limit having been
looked at, and the next message to be looked at, which may be a warning, reaches
it.

What still holds in every such state is what `Aftermath` says. It does not rest
on the counts being those of the messages kept or printed. A run is told by
looking at each message together with the recorder that it is given, which is
what `during` does: `passed` are those that their recorder could take, and
`written` those that were printed.

The bound on the errors that are written takes a stronger statement to prove.
Each of them has been counted, and was followed by a look at the limit, so as
long as the limit has not been reached fewer errors than the limit were written,
however many were counted.

## Main definitions

* `Recorded.isKept`: A message was taken, and not given up.
* `Recorder.writes`: A message has to be printed and can be rendered.
* `Recorder.during`: The messages of a run that something holds of.
* `Recorder.passed`, `Recorder.written`: Those that go through, and those that
  are printed.
* `Recorder.Aftermath`: What a run leaves, whatever became of its messages.

## Theorems

* `Recorder.record_eq_unrenderable_iff`: Which messages are given up, and what
  they leave.
* `Recorder.record_open_cases`: What an open recorder does with the others.
* `Recorder.progress_record`: What one message adds to a run.
* `Recorder.aftermath_recordAll`: What any run leaves.
-/

namespace Diagnostics

/-- A message was taken, and not given up. -/
def Recorded.isKept : Recorded → Bool
  | .kept _ => true
  | .unrenderable _ => false

namespace Recorder

/-- A message has to be printed now and can be rendered. -/
def writes (r : Recorder) (message : Message) : Bool :=
  !r.isSilent && r.options.level.admits message.kind &&
    (message.render? r.terminal r.options).isSome

/-- Those messages of a run that something holds of, each together with the
    recorder that it is given. -/
def during (holds : Recorder → Message → Bool) (r : Recorder) : List Message → List Message
  | [] => []
  | message :: rest =>
    let others := during holds (r.record message).recorder rest
    if holds r message then message :: others else others

/-- The messages of a run that are taken. -/
def passed (r : Recorder) (messages : List Message) : List Message :=
  during (fun r message => (r.record message).isKept) r messages

/-- The messages of a run that are printed. -/
def written (r : Recorder) (messages : List Message) : List Message :=
  during writes r messages

variable {r start : Recorder} {message : Message} {messages : List Message}

theorem during_concat (holds : Recorder → Message → Bool) (r : Recorder)
    (messages : List Message) (message : Message) :
    during holds r (messages ++ [message]) =
      during holds r messages ++
        if holds (r.recordAll messages) message then [message] else [] := by
  induction messages generalizing r with
  | nil => rfl
  | cons m ms ih =>
      rw [List.cons_append, during, during, ih]
      by_cases hm : holds r m = true
      · rw [if_pos hm, if_pos hm, List.cons_append]
        rfl
      · rw [if_neg hm, if_neg hm]
        rfl

theorem passed_concat (start : Recorder) (messages : List Message) (message : Message) :
    start.passed (messages ++ [message]) = start.passed messages ++
      if ((start.recordAll messages).record message).isKept then [message] else [] :=
  during_concat _ start messages message

theorem written_concat (start : Recorder) (messages : List Message) (message : Message) :
    start.written (messages ++ [message]) = start.written messages ++
      if (start.recordAll messages).writes message then [message] else [] :=
  during_concat _ start messages message

/-- One message more adds at most itself to the errors that are written. -/
theorem countP_written_concat_le (start : Recorder) (messages : List Message) (message : Message) :
    (start.written (messages ++ [message])).countP Message.isError ≤
      (start.written messages).countP Message.isError + [message].countP Message.isError := by
  rw [written_concat, List.countP_append]
  split
  · exact Nat.le_refl _
  · exact Nat.le_add_right _ _

theorem recordAll_concat (r : Recorder) (messages : List Message) (message : Message) :
    r.recordAll (messages ++ [message]) = ((r.recordAll messages).record message).recorder := by
  rw [recordAll, List.foldl_append]
  rfl

theorem writes_iff :
    r.writes message = true ↔
      r.isSilent = false ∧ r.options.level.admits message.kind = true ∧
        (message.render? r.terminal r.options).isSome = true := by
  rw [writes, Bool.and_eq_true, Bool.and_eq_true, Bool.not_eq_true', and_assoc]

/-- Which messages are given up, and what they leave: the recorder has to print
    them and cannot render them, and has counted them. -/
theorem record_eq_unrenderable_iff {r' : Recorder} :
    r.record message = .unrenderable r' ↔
      (r.isSilent = false ∧ ¬ r.Renders message) ∧
        r' = { r with counts := r.counts.add message.kind } := by
  by_cases h : r.isSilent = false ∧ ¬ r.Renders message
  · rw [record_of_not_renders h.1 h.2, Recorded.unrenderable.injEq]
    simp only [h.1, h.2, not_false_eq_true, and_self, true_and, eq_comm]
  · rcases record_cases r message with ⟨kept, -, -, hrecord, -⟩ | ⟨-, -, hopen, hrenders, -⟩
    · simp only [hrecord, h, reduceCtorEq, false_and]
    · exact absurd ⟨hopen, hrenders⟩ h

/-- The notice of a recorder that has reached the limit. -/
def notices (r : Recorder) : List String :=
  if r.limitReached then [r.limitNotice] else []

/-- What an open recorder does with a message that it can take. -/
theorem record_open_cases (hopen : r.isSilent = false) (hrenders : r.Renders message) :
    ∃ r', r.record message = .kept r' ∧
      r.Advances r' [message] [message] (r.rendered [message] ++ r'.notices) ∧
      (r'.limitReached = true ↔ HitsLimit r.policy r.options r'.counts.errors) := by
  by_cases hlimit : HitsLimit r.policy r.options
      (r.counts.errors + [message].countP Message.isError)
  · rcases record_of_hitsLimit hopen hrenders hlimit with ⟨r', hrecord, hadvances, hreached⟩
    rw [← hadvances.errors] at hlimit
    refine ⟨r', hrecord, ?_, iff_of_true hreached hlimit⟩
    rwa [notices, if_pos hreached]
  · rcases record_of_below hopen hrenders hlimit with ⟨r', hrecord, hadvances, hopen'⟩
    have hreached := (isSilent_eq_false_iff.mp hopen').1
    rw [← hadvances.errors] at hlimit
    refine ⟨r', hrecord, ?_, iff_of_false (by rw [hreached]; exact Bool.false_ne_true) hlimit⟩
    rwa [notices, hreached, if_neg Bool.false_ne_true, List.append_nil]

/-- How far a recorder has come in a run. This is what one message after the
    other keeps up. -/
structure Progress (start : Recorder) (messages : List Message) (r : Recorder) : Prop where
  policy : r.policy = start.policy
  options : r.options = start.options
  terminal : r.terminal = start.terminal
  reliable : r.outlet.faults = .never
  kept : r.kept = start.passed messages
  chunks : ∃ texts,
    (start.written messages).map (fun message => message.render? start.terminal start.options) =
      texts.map some ∧ r.outlet.chunks = texts ++ r.notices
  limit : r.limitReached = true →
    r.policy.prints = true ∧ HitsLimit r.policy r.options r.counts.errors
  /-- What is written has been counted. -/
  written_le : (start.written messages).countP Message.isError ≤ r.counts.errors
  /-- Before the limit is reached it has room for an error, whatever was counted. -/
  room : start.policy.limits = true → 0 < start.options.errorLimit →
    (start.written messages).countP Message.isError + (if r.limitReached then 0 else 1) ≤
      start.options.errorLimit

theorem progress_fresh (policy : Policy) (options : Options) (terminal : Terminal) :
    Progress { policy, options, terminal } [] { policy, options, terminal } where
  policy := rfl
  options := rfl
  terminal := rfl
  reliable := rfl
  kept := rfl
  chunks := ⟨[], rfl, rfl⟩
  limit := fun h => absurd h Bool.false_ne_true
  written_le := Nat.le_refl 0
  room := fun _ hpos => hpos

/-- A silent recorder goes on by keeping the message. -/
theorem Progress.keep (h : Progress start messages r) (hrun : r = start.recordAll messages)
    (hsilent : r.isSilent = true) : Progress start (messages ++ [message]) (r.keep message) := by
  have hpassed : start.passed (messages ++ [message]) = start.passed messages ++ [message] := by
    rw [passed_concat, ← hrun, record_of_silent hsilent]
    rfl
  -- A silent recorder prints nothing, so what was written stays the same.
  have hwritten : start.written (messages ++ [message]) = start.written messages := by
    rw [written_concat, ← hrun, writes, hsilent]
    exact List.append_nil _
  exact { h with
    kept := by rw [hpassed, ← h.kept]; rfl
    chunks := by rw [hwritten]; exact h.chunks
    written_le := by rw [hwritten]; exact h.written_le
    room := by rw [hwritten]; exact h.room }

/-- One that gives a message up goes on with its counts, to which nothing was
    written. -/
theorem Progress.giveUp (h : Progress start messages r) (hrun : r = start.recordAll messages)
    (hopen : r.isSilent = false) (hrenders : ¬ r.Renders message) :
    Progress start (messages ++ [message]) { r with counts := r.counts.add message.kind } := by
  have hreached := (isSilent_eq_false_iff.mp hopen).1
  have hpassed : start.passed (messages ++ [message]) = start.passed messages := by
    rw [passed_concat, ← hrun, record_of_not_renders hopen hrenders]
    exact List.append_nil _
  have hwritten : start.written (messages ++ [message]) = start.written messages := by
    have hnot : ¬ r.writes message = true := fun hwrites =>
      hrenders fun _ => (writes_iff.mp hwrites).2.2
    rw [written_concat, ← hrun, if_neg hnot]
    exact List.append_nil _
  -- The counts are all that changes, and they only grow.
  have hmore : r.counts.errors ≤ (r.counts.add message.kind).errors := by
    cases message.kind with
    | error => exact Nat.le_succ _
    | warning => exact Nat.le_refl _
  have hnotices : notices { r with counts := r.counts.add message.kind } = r.notices := by
    rw [notices, notices, hreached]
    rfl
  exact { h with
    kept := by rw [hpassed]; exact h.kept
    chunks := by rw [hwritten, hnotices]; exact h.chunks
    limit := fun hlimit => absurd (hlimit.symm.trans hreached) (by decide)
    written_le := by rw [hwritten]; exact Nat.le_trans h.written_le hmore
    room := by rw [hwritten]; exact h.room }

/-- The texts that an admitted message adds, and the message itself. -/
theorem rendered_eq_written (hopen : r.isSilent = false) (hrenders : r.Renders message) :
    ((if r.writes message then [message] else []).map fun message =>
      message.render? r.terminal r.options) = (r.rendered [message]).map some := by
  by_cases hadmits : r.options.level.admits message.kind = true
  · rcases Option.isSome_iff_exists.mp (hrenders hadmits) with ⟨text, htext⟩
    rw [if_pos (writes_iff.mpr ⟨hopen, hadmits, hrenders hadmits⟩),
      rendered_singleton_of_admits hadmits htext, List.map_singleton, List.map_singleton, htext]
  · rw [if_neg fun hwrites => hadmits (writes_iff.mp hwrites).2.1,
      rendered_singleton_of_not_admits hadmits]
    rfl

/-- One that is open takes the message, prints it if it has to, and looks at the
    limit. -/
theorem Progress.take (h : Progress start messages r) (hrun : r = start.recordAll messages)
    (hopen : r.isSilent = false) (hrenders : r.Renders message) :
    Progress start (messages ++ [message]) (r.record message).recorder := by
  rcases isSilent_eq_false_iff.mp hopen with ⟨hreached, hprints⟩
  rcases record_open_cases hopen hrenders with ⟨r', hrecord, hstep, hlimit⟩
  rw [hrecord, Recorded.recorder]
  have hpassed : start.passed (messages ++ [message]) = start.passed messages ++ [message] := by
    rw [passed_concat, ← hrun, hrecord]
    rfl
  have hcounts := hstep.errors
  -- What is written now has been counted by then.
  have hcounted := countP_written_concat_le start messages message
  have hone : [message].countP Message.isError ≤ 1 := List.countP_le_length
  have hbefore := h.written_le
  have hsettings : HitsLimit r'.policy r'.options r'.counts.errors ↔
      HitsLimit r.policy r.options r'.counts.errors := by
    rw [hstep.policy, hstep.options]
  exact {
    policy := hstep.policy.trans h.policy
    options := hstep.options.trans h.options
    terminal := hstep.terminal.trans h.terminal
    reliable := hstep.faults.trans h.reliable
    kept := by rw [hstep.kept, h.kept, hpassed]
    chunks := by
      rcases h.chunks with ⟨texts, htexts, hchunks⟩
      refine ⟨texts ++ r.rendered [message], ?_, ?_⟩
      · rw [written_concat, ← hrun, List.map_append, List.map_append, htexts, ← h.terminal,
          ← h.options, rendered_eq_written hopen hrenders]
      · rw [hstep.chunks h.reliable, hchunks, notices, hreached, if_neg Bool.false_ne_true,
          List.append_nil, List.append_assoc]
    limit := fun hreached' => ⟨hstep.policy ▸ hprints, hsettings.mpr (hlimit.mp hreached')⟩
    written_le := by omega
    room := by
      intro hlimits hpos
      have hroom := h.room hlimits hpos
      rw [if_neg (by rw [hreached]; exact Bool.false_ne_true)] at hroom
      by_cases hreached' : r'.limitReached = true
      · rw [if_pos hreached']
        omega
      · -- The limit was looked at, so fewer errors than that were counted.
        rw [if_neg hreached']
        have hfew : ¬ start.options.errorLimit ≤ r'.counts.errors := fun hle =>
          hreached' (hlimit.mpr ⟨h.policy ▸ hlimits, h.options ▸ hpos, h.options ▸ hle⟩)
        omega }

/-- Whatever a message is, the run goes on. -/
theorem progress_record (h : Progress start messages r) (hrun : r = start.recordAll messages)
    (message : Message) : Progress start (messages ++ [message]) (r.record message).recorder := by
  by_cases hopen : r.isSilent = false
  · by_cases hrenders : r.Renders message
    · exact h.take hrun hopen hrenders
    · rw [record_of_not_renders hopen hrenders]
      exact h.giveUp hrun hopen hrenders
  · rw [Bool.not_eq_false] at hopen
    rw [record_of_silent hopen]
    exact h.keep hrun hopen

theorem progress_recordAll (policy : Policy) (options : Options) (terminal : Terminal)
    (messages : List Message) :
    Progress { policy, options, terminal } messages
      (recordAll { policy, options, terminal } messages) := by
  -- From the back: the last message is given to what the others have left.
  induction messages using List.reverseRecOn with
  | nil => exact progress_fresh policy options terminal
  | append_singleton ms m ih =>
      rw [recordAll_concat]
      exact progress_record ih rfl m

/-- Past the limit a recorder keeps what comes and does nothing else, at the end
    neither. -/
theorem silence_of_limitReached (h : r.limitReached = true) (more : List Message) :
    (r.recordAll more).limitReached = true ∧ (r.recordAll more).counts = r.counts ∧
      (r.recordAll more).outlet = r.outlet ∧ (r.recordAll more).finish.outlet = r.outlet := by
  rw [recordAll_of_isSilent (isSilent_of_limitReached h)]
  have howes : owesSummary { r with kept := r.kept ++ more } = false :=
    owesSummary_of_limitReached h
  refine ⟨h, rfl, rfl, ?_⟩
  rw [finish, howes]
  rfl

/-- What a run leaves, whatever became of each of its messages. -/
structure Aftermath (start : Recorder) (messages : List Message) (r : Recorder) : Prop where
  /-- Everything is kept but what could not be rendered when it had to be. -/
  kept : r.kept = start.passed messages
  /-- A text arrived for each message that was printed, and a notice last. -/
  chunks : ∃ texts,
    (start.written messages).map (fun message => message.render? start.terminal start.options) =
      texts.map some ∧
    r.outlet.chunks = texts ++ if r.limitReached then [r.limitNotice] else []
  /-- Where the limit was reached there is one, and so many errors were counted. -/
  limit : r.limitReached = true →
    start.policy.prints = true ∧ start.policy.limits = true ∧ 0 < start.options.errorLimit ∧
      start.options.errorLimit ≤ r.counts.errors
  /-- So many errors were written, at most. -/
  written_le : start.policy.limits = true → 0 < start.options.errorLimit →
    (start.written messages).countP Message.isError ≤ start.options.errorLimit
  /-- Past the limit nothing is counted and nothing is written any more. -/
  silence : r.limitReached = true → ∀ more,
    (r.recordAll more).limitReached = true ∧ (r.recordAll more).counts = r.counts ∧
      (r.recordAll more).outlet = r.outlet ∧ (r.recordAll more).finish.outlet = r.outlet
  /-- The next message is given up exactly if it has to be printed and cannot be
      rendered, and then it is counted and that is all. -/
  next : ∀ message r', r.record message = .unrenderable r' ↔
    (r.limitReached = false ∧ start.policy.prints = true ∧
      start.options.level.admits message.kind = true ∧
      message.render? start.terminal start.options = none) ∧
      r' = { r with counts := r.counts.add message.kind }

/-- A message about a place that its source does not have. -/
def misplaced : Message :=
  { source := some { index := 0, absolutePath := "/e", displayPath := "e", contents := "" }
    span := ⟨1, 0⟩, text := "m", kind := .error }

/-- Where snippets are shown, messages about no place of their source can be
    counted without end, and nothing is written for them. -/
theorem recordAll_misplaced (policy : Policy) (options : Options) (terminal : Terminal)
    (hprints : policy.prints = true) (hsnippet : options.snippet = true) (n : Nat) :
    let start : Recorder := { policy, options, terminal }
    start.recordAll (List.replicate n misplaced) =
        { policy, options, terminal, counts := { errors := n } } ∧
      start.written (List.replicate n misplaced) = [] := by
  intro start
  induction n with
  | zero => exact ⟨rfl, rfl⟩
  | succ n ih =>
      have hopen : isSilent { policy, options, terminal, counts := { errors := n } } = false :=
        isSilent_eq_false_iff.mpr ⟨rfl, hprints⟩
      have hnone : misplaced.render? terminal options = none :=
        Message.render?_eq_none_iff.mpr ⟨_, rfl, hsnippet, rfl⟩
      have hrenders : ¬ Renders { policy, options, terminal, counts := { errors := n } }
          misplaced := by
        rw [Renders, hnone]
        exact fun h => absurd (h options.level.admits_error) Bool.false_ne_true
      have hnot : ¬ writes { policy, options, terminal, counts := { errors := n } }
          misplaced = true := fun hwrites => hrenders fun _ => (writes_iff.mp hwrites).2.2
      -- The message comes last. It is not written, and adds itself to the counts.
      rw [List.replicate_succ', written_concat, ih.1, if_neg hnot, List.append_nil]
      refine ⟨?_, ih.2⟩
      rw [recordAll_concat, ih.1, record_of_not_renders hopen hrenders]
      rfl

/-- A recorder that is used on after messages that it could not render. Every
    run leaves what `Aftermath` says. As many errors as one likes may have been
    counted by then, also more than the limit, with none of them written. -/
theorem aftermath_recordAll (policy : Policy) (options : Options) (terminal : Terminal) :
    let start : Recorder := { policy, options, terminal }
    (∀ messages, start.Aftermath messages (start.recordAll messages)) ∧
      (policy.prints = true → options.snippet = true → ∀ errors, ∃ messages,
        (start.recordAll messages).counts.errors = errors ∧ start.written messages = []) := by
  intro start
  refine ⟨fun messages => ?_, fun hprints hsnippet errors => ?_⟩
  · have h := progress_recordAll policy options terminal messages
    refine ⟨h.kept, h.chunks, ?_, ?_, fun hreached => silence_of_limitReached hreached, ?_⟩
    · intro hreached
      have hlimit := h.limit hreached
      rwa [h.policy, h.options] at hlimit
    · -- What room there is left only makes the bound smaller.
      intro hlimits hpos
      exact Nat.le_trans (Nat.le_add_right _ _) (h.room hlimits hpos)
    · intro message r'
      -- The message is given up by a recorder that is open, as the settings have it.
      have hgiven : (start.recordAll messages).isSilent = false ∧
            ¬ (start.recordAll messages).Renders message ↔
          (start.recordAll messages).limitReached = false ∧ policy.prints = true ∧
            options.level.admits message.kind = true ∧ message.render? terminal options = none := by
        rw [isSilent_eq_false_iff, Renders, Classical.not_imp, Bool.not_eq_true,
          Option.isSome_eq_false_iff, Option.isNone_iff_eq_none, h.policy, h.options, h.terminal,
          and_assoc]
      rw [record_eq_unrenderable_iff, hgiven]
  · rcases recordAll_misplaced policy options terminal hprints hsnippet errors with
      ⟨hrun, hwritten⟩
    refine ⟨List.replicate errors misplaced, ?_, hwritten⟩
    rw [hrun]

/-- Behind an error that could not be rendered a warning reaches the limit. -/
example :
    let options : Options := { snippet := true, errorLimit := 1 }
    let start : Recorder := { policy := .interactive, options, terminal := .plain }
    (start.recordAll [misplaced, .unplaced .warning "w"]).outlet.chunks =
      ["warning: w\n",
        "1 warning and 1 error reached (disable error limit with --error-limit=0)\n"] := by
  decide

end Recorder

end Diagnostics
