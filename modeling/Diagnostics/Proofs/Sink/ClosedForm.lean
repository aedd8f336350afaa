import Diagnostics.Proofs.Sink.Steps

/-!
# A Run in Closed Form

What a printing sink has written at the end of a run can be said without
running it. Cut the messages right after the error that reaches the limit, if
there is one. Everything up to the cut is counted and printed, as the level has
it; everything is kept; and the last words are a notice if there was a cut and
a summary if there was none.

A run is therefore put together from at most three: one that stays below the
limit, the single step that reaches it, and one that is silent. Without a cut
the first of them is the whole run.

## Main definitions

* `IsShortest`: The shortest start of a run that has so many errors.
* `Recorder.closingWords`: What follows the messages, by the whole run.

## Theorems

* `exists_split`: The shortest start ends with an error.
* `Recorder.recordAll_of_silent`: A silent run only keeps.
* `Recorder.recordAll_of_below`: A run below the limit counts and prints all.
* `Recorder.recordAll_of_hitsLimit`: A run that reaches the limit is cut there.
* `Recorder.finish_recordAll`: The state at the end of any run.
-/

namespace Diagnostics

/-- The shortest start of a run of messages that has so many errors. -/
structure IsShortest (errors : Nat) (messages start : List Message) : Prop where
  isPrefix : start <+: messages
  enough : errors ≤ start.countP Message.isError
  least : ∀ other, other <+: messages → errors ≤ other.countP Message.isError →
    start.length ≤ other.length

/-- Where there are enough errors there is a first place with enough of them,
    right after an error. -/
theorem exists_split {errors : Nat} {messages : List Message} (hpos : 0 < errors)
    (h : errors ≤ messages.countP Message.isError) :
    ∃ front last rest, messages = front ++ last :: rest ∧ last.isError = true ∧
      front.countP Message.isError + 1 = errors := by
  induction messages generalizing errors with
  | nil => exact absurd h (Nat.not_le_of_lt hpos)
  | cons m ms ih =>
      rw [List.countP_cons] at h
      -- An error is the last one looked for, or leaves one fewer to look for.
      by_cases herror : m.isError = true
      · rw [if_pos herror] at h
        by_cases hone : errors = 1
        · exact ⟨[], m, ms, rfl, herror, hone.symm⟩
        · rcases ih (show 0 < errors - 1 by omega) (by omega) with
            ⟨front, last, rest, rfl, hlast, hcount⟩
          refine ⟨m :: front, last, rest, rfl, hlast, ?_⟩
          rw [List.countP_cons_of_pos herror]
          omega
      · rw [if_neg herror] at h
        rcases ih hpos h with ⟨front, last, rest, rfl, hlast, hcount⟩
        refine ⟨m :: front, last, rest, rfl, hlast, ?_⟩
        rw [List.countP_cons_of_neg herror, hcount]

/-- The start up to such a place and the error there is the shortest. -/
theorem isShortest_of_split (front rest : List Message) {last : Message}
    (hlast : last.isError = true) :
    IsShortest (front.countP Message.isError + 1) (front ++ last :: rest) (front ++ [last]) where
  isPrefix := ⟨rest, List.append_cons front last rest ▸ rfl⟩
  enough := by
    simp only [List.countP_append, List.countP_cons_of_pos hlast, List.countP_nil, Nat.zero_add,
      Nat.le_refl]
  least := by
    intro other hother henough
    by_cases hshort : other.length ≤ front.length
    · -- A start as short as this lies before the error, and has one too few.
      have hfront := List.prefix_of_prefix_length_le hother (List.prefix_append _ _) hshort
      have hcount := hfront.countP_le (p := Message.isError)
      omega
    · -- Any other is at least as long as the start with the error.
      rw [List.length_append, List.length_singleton]
      omega

namespace Recorder

theorem recordAll_append (r : Recorder) (ms ns : List Message) :
    r.recordAll (ms ++ ns) = (r.recordAll ms).recordAll ns := by
  unfold recordAll
  rw [List.foldl_append]

theorem recordAll_cons_of_kept {r r' : Recorder} {message : Message}
    (h : r.record message = .kept r') (messages : List Message) :
    r.recordAll (message :: messages) = r'.recordAll messages := by
  rw [recordAll, List.foldl_cons, h]
  rfl

/-- Once silent, a recorder only keeps, to the end of the run. -/
theorem recordAll_of_silent {r : Recorder} (h : r.isSilent = true) (messages : List Message) :
    r.Advances (r.recordAll messages) messages [] [] ∧
      (r.recordAll messages).limitReached = r.limitReached := by
  induction messages generalizing r with
  | nil => exact ⟨Advances.refl r, rfl⟩
  | cons m ms ih =>
      rw [recordAll_cons_of_kept (record_of_silent h m)]
      rcases ih (r := r.keep m) h with ⟨hrest, hreached⟩
      exact ⟨(advances_keep r m).trans hrest, hreached⟩

/-- As long as the limit is not reached, every message is counted, kept and
    printed if the level admits it. -/
theorem recordAll_of_below {r : Recorder} (hopen : r.isSilent = false) {messages : List Message}
    (hrenders : ∀ message ∈ messages, r.Renders message)
    (hbelow : ¬ HitsLimit r.policy r.options
      (r.counts.errors + messages.countP Message.isError)) :
    r.Advances (r.recordAll messages) messages messages (r.rendered messages) ∧
      (r.recordAll messages).isSilent = false := by
  -- On the messages, for every recorder: the errors of the rest come on top of
  -- what the first message has added to the counts.
  induction messages generalizing r with
  | nil => exact ⟨Advances.refl r, hopen⟩
  | cons m ms ih =>
      have hsum : [m].countP Message.isError + ms.countP Message.isError
          = (m :: ms).countP Message.isError := by
        rw [← List.countP_append, List.singleton_append]
      have hfirst : ¬ HitsLimit r.policy r.options
          (r.counts.errors + [m].countP Message.isError) := fun h =>
        hbelow (h.mono (by omega))
      rcases record_of_below hopen (hrenders m List.mem_cons_self) hfirst with
        ⟨r', hrecord, hstep, hopen'⟩
      rw [recordAll_cons_of_kept hrecord]
      rcases ih hopen'
          (fun message hmem => (hstep.renders_iff message).mpr
            (hrenders message (List.mem_cons_of_mem m hmem)))
          (by rwa [hstep.policy, hstep.options, hstep.errors, Nat.add_assoc, hsum]) with
        ⟨hrest, hopen''⟩
      have hall := hstep.trans hrest
      rw [hstep.rendered_eq, ← rendered_append] at hall
      exact ⟨hall, hopen''⟩

/-- The message that reaches the limit is the last to be counted and printed.
    The notice after it counts it too, and the rest is kept in silence. -/
theorem recordAll_of_hitsLimit {r : Recorder} (hopen : r.isSilent = false)
    {front : List Message} {last : Message} (rest : List Message)
    (hrenders : ∀ message ∈ front ++ [last], r.Renders message)
    (hbelow : ¬ HitsLimit r.policy r.options
      (r.counts.errors + front.countP Message.isError))
    (hlimit : HitsLimit r.policy r.options
      (r.counts.errors + (front ++ [last]).countP Message.isError)) :
    r.Advances (r.recordAll (front ++ last :: rest)) (front ++ last :: rest) (front ++ [last])
        (r.rendered (front ++ [last]) ++ [(r.recordAll (front ++ last :: rest)).limitNotice]) ∧
      (r.recordAll (front ++ last :: rest)).limitReached = true := by
  rcases recordAll_of_below hopen
      (fun message hmem => hrenders message (List.mem_append_left [last] hmem)) hbelow with
    ⟨hfront, hopen'⟩
  -- The last message is counted on top of those in front.
  have herrors : (r.recordAll front).counts.errors + [last].countP Message.isError
      = r.counts.errors + (front ++ [last]).countP Message.isError := by
    rw [hfront.errors, List.countP_append, Nat.add_assoc]
  rcases record_of_hitsLimit hopen'
      ((hfront.renders_iff last).mpr
        (hrenders last (List.mem_append_right front List.mem_cons_self)))
      (by rwa [hfront.policy, hfront.options, herrors]) with
    ⟨r', hrecord, hstep, hreached⟩
  rcases recordAll_of_silent (isSilent_of_limitReached hreached) rest with ⟨hrest, hreached'⟩
  rw [recordAll_append, recordAll_cons_of_kept hrecord]
  -- Silence counts nothing, so the notice can be read off the end of the run.
  have hnotice : (r'.recordAll rest).limitNotice = r'.limitNotice := by
    unfold limitNotice
    exact congrArg (fun counts : Counts => counts.text ++ _) hrest.counts
  have hall := (hfront.trans hstep).trans hrest
  rw [hfront.rendered_eq, ← List.append_assoc, ← rendered_append, List.append_nil,
    List.append_nil, List.append_assoc front, List.singleton_append, ← hnotice] at hall
  exact ⟨hall, hreached'.trans hreached⟩

/-- The end of a run adds a summary and nothing else, if one is owed. -/
theorem advances_finish (r : Recorder) :
    r.Advances r.finish [] [] (if r.owesSummary = true then [r.summary] else []) := by
  have hnote (s : Recorder) (entry : Entry) : s.Advances (s.note entry) [] [] [] :=
    { Advances.refl s with }
  unfold finish
  by_cases howes : r.owesSummary = true
  · rw [if_pos howes, if_pos howes]
    exact (advances_print r (summary_ne_empty r)).trans (hnote _ _)
  · rw [if_neg howes, if_neg howes]
    exact hnote _ _

theorem limitReached_finish (r : Recorder) : r.finish.limitReached = r.limitReached := by
  unfold finish
  by_cases howes : r.owesSummary = true
  · rw [if_pos howes]
    rfl
  · rw [if_neg howes]
    rfl

/-- What a run ends with: a notice with the counts up to the limit, if the
    limit was reached, and otherwise a summary of all messages, if the policy
    and the level ask for one and there are any. -/
def closingWords (policy : Policy) (options : Options) (messages start : List Message) :
    List String :=
  if HitsLimit policy options (messages.countP Message.isError) then
    [(Counts.ofMessages start).text ++ " reached (disable error limit with --error-limit=0)\n"]
  else if policy.summarizes = true ∧ options.level ≤ .info ∧ messages ≠ [] then
    [(Counts.ofMessages messages).text ++ "\n"]
  else []

theorem owesSummary_iff {r : Recorder} (hreached : r.limitReached = false)
    {messages : List Message} (hcounts : r.counts = Counts.ofMessages messages) :
    r.owesSummary = true ↔
      r.policy.summarizes = true ∧ r.options.level ≤ .info ∧ messages ≠ [] := by
  rw [owesSummary, hreached, hcounts, Bool.not_false, Bool.and_true, Bool.and_eq_true,
    Bool.and_eq_true, Bool.not_eq_true', ← Bool.not_eq_true, Counts.isEmpty_ofMessages_iff,
    Level.summarizes, decide_eq_true_iff, and_assoc]

section FreshRecorder

variable {r : Recorder} {messages : List Message}

/-- A run that stays below the limit, to its end. -/
theorem finish_of_below (hopen : r.isSilent = false) (hcounts : r.counts = {})
    (hrenders : ∀ message ∈ messages, r.Renders message)
    (hbelow : ¬ HitsLimit r.policy r.options (messages.countP Message.isError)) :
    r.Advances (r.recordAll messages).finish messages messages
        (r.rendered messages ++ closingWords r.policy r.options messages messages) ∧
      (r.recordAll messages).finish.limitReached = false := by
  have hbelow' : ¬ HitsLimit r.policy r.options
      (r.counts.errors + messages.countP Message.isError) := by
    rwa [hcounts, Nat.zero_add]
  rcases recordAll_of_below hopen hrenders hbelow' with ⟨hrun, hopen'⟩
  have hreached : (r.recordAll messages).limitReached = false :=
    (isSilent_eq_false_iff.mp hopen').1
  have hsum : (r.recordAll messages).counts = Counts.ofMessages messages := by
    rw [hrun.counts, hcounts, Counts.addAll_empty]
  have hall := hrun.trans (advances_finish _)
  -- The summary is owed and worded by what was counted, and that is everything.
  have hwords : (if (r.recordAll messages).owesSummary = true
        then [(r.recordAll messages).summary] else [])
      = closingWords r.policy r.options messages messages := by
    rw [closingWords, if_neg hbelow, summary, hsum]
    simp only [owesSummary_iff hreached hsum, hrun.policy, hrun.options]
  rw [hwords, List.append_nil] at hall
  exact ⟨hall, (limitReached_finish _).trans hreached⟩

/-- A run that reaches the limit, to its end. -/
theorem finish_of_hitsLimit (hopen : r.isSilent = false) (hcounts : r.counts = {})
    (hrenders : ∀ message ∈ messages, r.Renders message)
    (hlimit : HitsLimit r.policy r.options (messages.countP Message.isError)) :
    ∃ start, IsShortest r.options.errorLimit messages start ∧
      r.Advances (r.recordAll messages).finish messages start
        (r.rendered start ++ closingWords r.policy r.options messages start) ∧
      (r.recordAll messages).finish.limitReached = true := by
  rcases exists_split hlimit.2.1 hlimit.2.2 with ⟨front, last, rest, rfl, hlast, hcount⟩
  have hshortest := isShortest_of_split front rest hlast
  rw [hcount] at hshortest
  -- Before the last of the errors there is one too few.
  have hbelow : ¬ HitsLimit r.policy r.options
      (r.counts.errors + front.countP Message.isError) := by
    rw [hcounts, Nat.zero_add]
    exact fun h => absurd h.2.2 (by omega)
  have hlimit' : HitsLimit r.policy r.options
      (r.counts.errors + (front ++ [last]).countP Message.isError) :=
    ⟨hlimit.1, hlimit.2.1, Nat.le_trans hshortest.enough (Nat.le_add_left _ _)⟩
  have hrenders' : ∀ message ∈ front ++ [last], r.Renders message := fun message hmem =>
    hrenders message (hshortest.isPrefix.subset hmem)
  rcases recordAll_of_hitsLimit hopen rest hrenders' hbelow hlimit' with
    ⟨hrun, hreached⟩
  have hall := hrun.trans (advances_finish _)
  -- No summary follows, and the notice has the words of what was counted.
  rw [if_neg (by rw [owesSummary_of_limitReached hreached]; exact Bool.false_ne_true),
    limitNotice, hrun.counts, hcounts, Counts.addAll_empty] at hall
  simp only [List.append_nil] at hall
  refine ⟨front ++ [last], hshortest, ?_, (limitReached_finish _).trans hreached⟩
  rwa [closingWords, if_pos hlimit]

end FreshRecorder

/-- A fresh recorder that prints to a reliable outlet, after a run of messages
    that can all be rendered. What arrived are the messages up to the limit that
    the level admits, one text for each, and the closing words. The messages up
    to the limit are counted, and all are kept. -/
theorem finish_recordAll {policy : Policy} {options : Options} {terminal : Terminal}
    {messages : List Message} (hprints : policy.prints = true)
    (hrender : ∀ message ∈ messages, (message.render? terminal options).isSome = true) :
    ∃ start,
      (if HitsLimit policy options (messages.countP Message.isError)
        then IsShortest options.errorLimit messages start else start = messages) ∧
      (recordAll { policy, options, terminal } messages).finish.outlet.chunks =
        (start.filter (fun message => options.level.admits message.kind)).filterMap
            (fun message => message.render? terminal options) ++
          closingWords policy options messages start ∧
      (recordAll { policy, options, terminal } messages).finish.counts
        = Counts.ofMessages start ∧
      (recordAll { policy, options, terminal } messages).finish.kept = messages ∧
      ((recordAll { policy, options, terminal } messages).finish.limitReached = true ↔
        HitsLimit policy options (messages.countP Message.isError)) := by
  have hopen : isSilent { policy, options, terminal } = false :=
    isSilent_eq_false_iff.mpr ⟨rfl, hprints⟩
  have hrenders : ∀ message ∈ messages, Renders { policy, options, terminal } message :=
    fun message hmem _ => hrender message hmem
  -- With a cut and without one.
  by_cases hlimit : HitsLimit policy options (messages.countP Message.isError)
  · rcases finish_of_hitsLimit hopen rfl hrenders hlimit with
      ⟨start, hshortest, hrun, hreached⟩
    refine ⟨start, by rwa [if_pos hlimit], hrun.chunks rfl, ?_, hrun.kept, ?_⟩
    · rw [hrun.counts, Counts.addAll_empty]
    · exact ⟨fun _ => hlimit, fun _ => hreached⟩
  · rcases finish_of_below hopen rfl hrenders hlimit with ⟨hrun, hreached⟩
    refine ⟨messages, by rw [if_neg hlimit], hrun.chunks rfl, ?_, hrun.kept, ?_⟩
    · rw [hrun.counts, Counts.addAll_empty]
    · rw [hreached]
      exact ⟨fun h => absurd h Bool.false_ne_true, fun h => absurd h hlimit⟩

/-- Two warnings around two errors, and one error more. -/
def mixed : List Message :=
  [.unplaced .warning "a", .unplaced .error "b", .unplaced .warning "c",
    .unplaced .error "d", .unplaced .error "e"]

/-- At a limit of two, the third error of the mixed messages is kept in
    silence, and the warnings, which the level does not admit, are counted. -/
theorem finish_recordAll_mixed :
    Policy.interactive.prints = true ∧
      (∀ message ∈ mixed,
        (message.render? .plain { errorLimit := 2, level := .error }).isSome = true) ∧
      (recordAll
          { policy := .interactive
            options := { errorLimit := 2, level := .error }
            terminal := .plain } mixed).finish.outlet.chunks =
        ["error: b\n", "error: d\n",
          "2 warnings and 2 errors reached (disable error limit with --error-limit=0)\n"] := by
  have hrender : ∀ message ∈ mixed,
      (message.render? .plain { errorLimit := 2, level := .error }).isSome = true := by decide
  refine ⟨rfl, hrender, ?_⟩
  rcases finish_recordAll (show Policy.interactive.prints = true from rfl) hrender with
    ⟨start, hstart, hchunks, -, -, -⟩
  rw [if_pos (by decide)] at hstart
  -- Four of the five messages are as many as it takes for two errors.
  have hthree : ¬ start.length ≤ (mixed.take 3).length := by
    intro hshort
    have hstart3 := List.prefix_of_prefix_length_le hstart.isPrefix
      (List.take_prefix 3 mixed) hshort
    exact absurd (Nat.le_trans hstart.enough (hstart3.countP_le (p := Message.isError)))
      (by decide)
  have hfour := hstart.least (mixed.take 4) (List.take_prefix 4 mixed) (by decide)
  have htake : start = mixed.take 4 :=
    (List.prefix_of_prefix_length_le hstart.isPrefix (List.take_prefix 4 mixed) hfour).eq_of_length
      (Nat.le_antisymm hfour (Nat.lt_of_not_le hthree))
  rw [hchunks, htake]
  decide

end Recorder

end Diagnostics
