import Diagnostics.Options
import Mathlib.Data.List.Induction

/-!
# Settings in Raw Arguments

The scan of raw arguments is a fold, and what it has seen so far is all in the
settings that it carries. What comes of it can be said without the fold: each
setting is what the last of its own words asks for, or its default if there is
no such word. Nothing else among the arguments is looked at, in particular not
the words of another setting, nor what merely resembles a word.

All four settings are of this kind, and differ in their words only. Two of them
have none, and so keep their defaults. `Options.IsSetBy` is what they have in
common, and everything is proved of it once.

## Main definitions

* `colorFlags`, `levelFlags`: The words that set the colour and the level.
* `lastOf?`: The last of some words among arguments.
* `Options.IsSetBy`: A setting that some words set, each overriding the ones
  before it.

## Theorems

* `lastOf?_append`: Later arguments come first.
* `Options.IsSetBy.ofArgs`: A setting is what the last of its words asks for.
* `Options.IsSetBy.ofArgs_append`: Of two lists, the second decides if it has
  one of the words.
* `Options.ofArgs_eq`: All settings at once.
* `Options.color_ofArgs`, `Options.level_ofArgs`: What each of the words asks
  for.
* `Options.ofArgs_lastWins`: The scan is last-wins for each setting and blind to
  everything else.
-/

namespace Diagnostics

/-- The words that speak about colour. -/
def colorFlags : List String :=
  ["--color=false", "--color=true"]

/-- The words that speak about the level. -/
def levelFlags : List String :=
  ["--log-level=info", "--log-level=warning", "--log-level=error"]

/-- The last of the arguments that is one of some words. -/
def lastOf? (words args : List String) : Option String :=
  (args.filter (· ∈ words)).getLast?

/-- Where a word stands among the later arguments, the earlier ones do not
    matter. -/
theorem lastOf?_append (words xs ys : List String) :
    lastOf? words (xs ++ ys) = (lastOf? words ys).or (lastOf? words xs) := by
  unfold lastOf?
  rw [List.filter_append, List.getLast?_append]

theorem lastOf?_eq_none_iff (words args : List String) :
    lastOf? words args = none ↔ ¬ ∃ arg ∈ args, arg ∈ words := by
  unfold lastOf?
  simp only [List.getLast?_eq_none_iff, List.filter_eq_nil_iff, decide_eq_true_eq, not_exists,
    not_and]

theorem mem_of_lastOf? {words args : List String} {word : String}
    (h : lastOf? words args = some word) : word ∈ words :=
  of_decide_eq_true (List.mem_filter.mp (List.mem_of_getLast? h)).2

theorem lastOf?_singleton (words : List String) (arg : String) :
    lastOf? words [arg] = if arg ∈ words then some arg else none := by
  unfold lastOf?
  by_cases hword : arg ∈ words
  · rw [if_pos hword, List.filter_cons, if_pos (decide_eq_true hword), List.filter_nil,
      List.getLast?_singleton]
  · rw [if_neg hword, List.filter_cons, if_neg (mt of_decide_eq_true hword), List.filter_nil,
      List.getLast?_nil]

theorem isSome_colorFlag?_iff (arg : String) :
    (colorFlag? arg).isSome = true ↔ arg ∈ colorFlags := by
  unfold colorFlag? colorFlags
  simp only [List.mem_cons, List.not_mem_nil, or_false]
  -- By the questions that are asked of an argument, in their order.
  by_cases hfalse : arg = "--color=false"
  · rw [if_pos hfalse]
    exact iff_of_true rfl (Or.inl hfalse)
  · rw [if_neg hfalse]
    by_cases htrue : arg = "--color=true"
    · rw [if_pos htrue]
      exact iff_of_true rfl (Or.inr htrue)
    · rw [if_neg htrue]
      exact iff_of_false Bool.noConfusion (not_or_intro hfalse htrue)

theorem isSome_levelFlag?_iff (arg : String) :
    (levelFlag? arg).isSome = true ↔ arg ∈ levelFlags := by
  unfold levelFlag? levelFlags
  simp only [List.mem_cons, List.not_mem_nil, or_false]
  by_cases hinfo : arg = "--log-level=info"
  · rw [if_pos hinfo]
    exact iff_of_true rfl (Or.inl hinfo)
  · rw [if_neg hinfo]
    by_cases hwarning : arg = "--log-level=warning"
    · rw [if_pos hwarning]
      exact iff_of_true rfl (Or.inr (Or.inl hwarning))
    · rw [if_neg hwarning]
      by_cases herror : arg = "--log-level=error"
      · rw [if_pos herror]
        exact iff_of_true rfl (Or.inr (Or.inr herror))
      · rw [if_neg herror]
        exact iff_of_false Bool.noConfusion
          (not_or_intro hinfo (not_or_intro hwarning herror))

namespace Options

/-- A setting that some words set. One of them overrides what was set before, and
    any other argument leaves it alone. -/
structure IsSetBy {α : Type} (words : List String) (flag? : String → Option α)
    (setting : Options → α) : Prop where
  isSome_iff : ∀ arg, (flag? arg).isSome = true ↔ arg ∈ words
  apply : ∀ (options : Options) (arg : String),
    setting (options.apply arg) = (flag? arg).getD (setting options)

theorem isSetBy_color : IsSetBy colorFlags colorFlag? Options.color :=
  ⟨isSome_colorFlag?_iff, fun _ _ => rfl⟩

theorem isSetBy_level : IsSetBy levelFlags levelFlag? Options.level :=
  ⟨isSome_levelFlag?_iff, fun _ _ => rfl⟩

/-- No word sets whether snippets are shown. -/
theorem isSetBy_snippet : IsSetBy [] (fun _ => none) Options.snippet :=
  ⟨fun _ => iff_of_false Bool.noConfusion List.not_mem_nil, fun _ _ => rfl⟩

/-- No word sets the error limit. -/
theorem isSetBy_errorLimit : IsSetBy [] (fun _ => none) Options.errorLimit :=
  ⟨fun _ => iff_of_false Bool.noConfusion List.not_mem_nil, fun _ _ => rfl⟩

namespace IsSetBy

variable {α : Type} {words : List String} {flag? : String → Option α} {setting : Options → α}

/-- After the scan a setting is what the last of its words asks for, or else its
    default. -/
theorem ofArgs (h : IsSetBy words flag? setting) (args : List String) :
    setting (ofArgs args) = ((lastOf? words args).bind flag?).getD (setting {}) := by
  unfold Options.ofArgs
  -- From the back: the last argument either decides, or can be left out.
  induction args using List.reverseRecOn with
  | nil => rfl
  | append_singleton args arg ih =>
      rw [List.foldl_append, List.foldl_cons, List.foldl_nil, h.apply, ih, lastOf?_append,
        lastOf?_singleton]
      by_cases hword : arg ∈ words
      · -- A word of this setting overrides whatever was set before it.
        rcases Option.isSome_iff_exists.mp ((h.isSome_iff arg).mpr hword) with ⟨value, hvalue⟩
        simp only [if_pos hword, Option.some_or, Option.bind_some, hvalue, Option.getD_some]
      · -- Anything else leaves the setting and the last word as they were.
        have hnone : flag? arg = none := by
          rw [← Option.not_isSome_iff_eq_none, h.isSome_iff]
          exact hword
        simp only [if_neg hword, Option.none_or, hnone, Option.getD_none]

/-- Of two lists of arguments the second one decides, if one of the words is in
    it. -/
theorem ofArgs_append (h : IsSetBy words flag? setting) (xs ys : List String) :
    setting (Options.ofArgs (xs ++ ys)) =
      if ∃ arg ∈ ys, arg ∈ words then setting (Options.ofArgs ys)
      else setting (Options.ofArgs xs) := by
  rw [h.ofArgs, h.ofArgs, h.ofArgs, lastOf?_append]
  by_cases hys : ∃ arg ∈ ys, arg ∈ words
  · -- With a word among the later arguments the last one of all is theirs.
    have hsome : lastOf? words ys ≠ none := fun hnone =>
      (lastOf?_eq_none_iff words ys).mp hnone hys
    rcases Option.ne_none_iff_exists'.mp hsome with ⟨word, hword⟩
    rw [if_pos hys, hword, Option.some_or]
  · -- Without one it is that of the earlier arguments.
    rw [if_neg hys, (lastOf?_eq_none_iff words ys).mpr hys, Option.none_or]

end IsSetBy

/-- All settings after the scan. -/
theorem ofArgs_eq (args : List String) :
    ofArgs args =
      { color := ((lastOf? colorFlags args).bind colorFlag?).getD .auto
        level := ((lastOf? levelFlags args).bind levelFlag?).getD .none } := by
  -- Of the two that no word sets there is no last word to look at.
  have hnone : lastOf? [] args = none :=
    (lastOf?_eq_none_iff [] args).mpr fun ⟨_, _, hmem⟩ => List.not_mem_nil hmem
  have hsnippet := isSetBy_snippet.ofArgs args
  have hlimit := isSetBy_errorLimit.ofArgs args
  rw [hnone] at hsnippet hlimit
  rw [← isSetBy_color.ofArgs args, ← isSetBy_level.ofArgs args]
  -- Options are known by their four settings, two of which are left at their defaults.
  generalize ofArgs args = options at hsnippet hlimit ⊢
  cases options
  simp only [Option.bind_none, Option.getD_none] at hsnippet hlimit
  rw [hsnippet, hlimit]

/-- The colour is what the last word for it asks for, and left to the terminal if there
    is no such word. -/
theorem color_ofArgs (args : List String) :
    (ofArgs args).color =
      if lastOf? colorFlags args = some "--color=true" then .always
      else if lastOf? colorFlags args = some "--color=false" then .never
      else .auto := by
  rw [isSetBy_color.ofArgs]
  cases hlast : lastOf? colorFlags args with
  | none => rfl
  | some word =>
      -- The last word is one of two, and each of them can be looked up.
      have hword := mem_of_lastOf? hlast
      simp only [colorFlags, List.mem_cons, List.not_mem_nil, or_false] at hword
      rcases hword with rfl | rfl <;> decide

/-- The level is what the last word for it asks for, and none if there is no such
    word. -/
theorem level_ofArgs (args : List String) :
    (ofArgs args).level =
      if lastOf? levelFlags args = some "--log-level=info" then .info
      else if lastOf? levelFlags args = some "--log-level=warning" then .warning
      else if lastOf? levelFlags args = some "--log-level=error" then .error
      else .none := by
  rw [isSetBy_level.ofArgs]
  cases hlast : lastOf? levelFlags args with
  | none => rfl
  | some word =>
      have hword := mem_of_lastOf? hlast
      simp only [levelFlags, List.mem_cons, List.not_mem_nil, or_false] at hword
      rcases hword with rfl | rfl | rfl <;> decide

/-- The scan is last-wins for each setting and blind to everything else.

    Behind other arguments, the colour is that of the later ones if they have a
    word for the colour, and that of the earlier ones otherwise; and so it is
    with the level. Two lists with the same words for the colour in the same
    order, and the same words for the level in the same order, ask for the same
    settings, whatever else they hold and however their words are mixed. The
    other two settings are never set. And what the colour and the level are is
    what the last of their own words says, or the default without one. -/
theorem ofArgs_lastWins (xs ys : List String) :
    (ofArgs (xs ++ ys)).color =
        (if ∃ arg ∈ ys, arg ∈ colorFlags then (ofArgs ys).color else (ofArgs xs).color) ∧
      (ofArgs (xs ++ ys)).level =
        (if ∃ arg ∈ ys, arg ∈ levelFlags then (ofArgs ys).level else (ofArgs xs).level) ∧
      (xs.filter (· ∈ colorFlags) = ys.filter (· ∈ colorFlags) →
        xs.filter (· ∈ levelFlags) = ys.filter (· ∈ levelFlags) → ofArgs xs = ofArgs ys) ∧
      (ofArgs xs).snippet = false ∧ (ofArgs xs).errorLimit = 0 ∧
      (ofArgs xs).color =
        (if lastOf? colorFlags xs = some "--color=true" then .always
          else if lastOf? colorFlags xs = some "--color=false" then .never
          else .auto) ∧
      (ofArgs xs).level =
        (if lastOf? levelFlags xs = some "--log-level=info" then .info
          else if lastOf? levelFlags xs = some "--log-level=warning" then .warning
          else if lastOf? levelFlags xs = some "--log-level=error" then .error
          else .none) := by
  refine ⟨isSetBy_color.ofArgs_append xs ys, isSetBy_level.ofArgs_append xs ys,
    fun hcolor hlevel => ?_, ?_, ?_, color_ofArgs xs, level_ofArgs xs⟩
  · -- The settings depend on the last words alone, and these on what is filtered.
    rw [ofArgs_eq, ofArgs_eq, lastOf?, lastOf?, lastOf?, lastOf?, hcolor, hlevel]
  · rw [ofArgs_eq]
  · rw [ofArgs_eq]

/-- The words of the one list are mixed otherwise in the other, among arguments
    that resemble them. -/
theorem ofArgs_lastWins_mixed :
    let xs := ["--color=true", "--log-level=error", "--color=false", "--log-level=info"]
    let ys := ["--log-level=error", "", "--color", "--log-level=information", "--color=true",
      "--log-level=info", "--COLOR=true", "--color=false", "--color=true ", "--log-level=warn"]
    xs.filter (· ∈ colorFlags) = ys.filter (· ∈ colorFlags) ∧
      xs.filter (· ∈ levelFlags) = ys.filter (· ∈ levelFlags) ∧
      ofArgs xs = ofArgs ys ∧ ofArgs ys = { color := .never, level := .info } := by
  intro xs ys
  have hcolor : xs.filter (· ∈ colorFlags) = ys.filter (· ∈ colorFlags) := by decide
  have hlevel : xs.filter (· ∈ levelFlags) = ys.filter (· ∈ levelFlags) := by decide
  exact ⟨hcolor, hlevel, (ofArgs_lastWins xs ys).2.2.1 hcolor hlevel, by decide⟩

end Options

end Diagnostics
