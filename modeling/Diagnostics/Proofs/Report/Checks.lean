import Diagnostics.Proofs.Text.Literals
import Diagnostics.Report

/-!
# What the Two Checks Report

The report is about lines that start with a tab and about literals that contain
a reminder. Both checks are scans, and both are described here without one.

A line starts with a tab where a tab is the first character of the text or comes
right after a line feed. The errors are at exactly these offsets, from the first
to the last. The program finds them by cutting the text into lines and adding up
their lengths; `tabScan` finds them by looking at each character and the one
before it. To compare the two is to compare the lengths with the characters, and
everything else is then read off the simpler scan.

For the warnings the literals are given, and what is left is that the search for
the reminder says yes exactly if it is there, and that no literal fails to be a
place in the text.

## Main definitions

* `Text.StartsWithTabAt`: A line starts with a tab at some offset.
* `Report.tabScan`: These offsets, from one pass over the characters.
* `Report.IsTabErrors`: The errors about indentation.
* `Report.IsReminders`: The warnings about literals.
* `Report.reminders`: These warnings, from a filter.

## Theorems

* `Report.tabOffsets_lines`: Cutting into lines and the pass find the same.
* `Report.isTabErrors_tabErrors`: The first check.
* `Report.isReminders_reminders`, `Report.reminders?_eq`: The second one, which
  always has an answer.
* `Report.IsTabErrors.fitsIn_of_mem`, `Report.fitsIn_of_mem_reminders`: Both are
  about places in the text.
-/

namespace Diagnostics

namespace Text

/-- A line starts with a tab at a byte offset: there is a tab, and before it a
    line feed or nothing. -/
def StartsWithTabAt (cs : List Char) (offset : Nat) : Prop :=
  ∃ before after, cs = before ++ '\t' :: after ∧ byteLength before = offset ∧
    (before = [] ∨ ['\n'] <:+ before)

/-- The same for a text that goes on after some character. -/
def TabAfter (previous : Char) (cs : List Char) (offset : Nat) : Prop :=
  ∃ before after, cs = before ++ '\t' :: after ∧ byteLength before = offset ∧
    ['\n'] <:+ previous :: before

/-- A text starts where a line does, as if after a line feed. -/
theorem startsWithTabAt_iff {cs : List Char} {offset : Nat} :
    StartsWithTabAt cs offset ↔ TabAfter '\n' cs offset := by
  have hstart (before : List Char) :
      ['\n'] <:+ '\n' :: before ↔ before = [] ∨ ['\n'] <:+ before := by
    rw [List.suffix_cons_iff, List.cons.injEq, eq_comm (a := ([] : List Char))]
    simp only [true_and]
  simp only [StartsWithTabAt, TabAfter, hstart]

theorem not_tabAfter_nil (previous : Char) (offset : Nat) : ¬ TabAfter previous [] offset := by
  rintro ⟨before, after, h, -⟩
  exact List.append_ne_nil_of_right_ne_nil before (List.cons_ne_nil _ _) h.symm

/-- The first character is such a tab, or one comes later. -/
theorem tabAfter_cons {previous c : Char} {cs : List Char} {offset : Nat} :
    TabAfter previous (c :: cs) offset ↔
      (previous = '\n' ∧ c = '\t' ∧ offset = 0) ∨
        ∃ later, TabAfter c cs later ∧ offset = c.utf8Size + later := by
  constructor
  · rintro ⟨before, after, h, rfl, hfeed⟩
    -- Nothing is before the tab exactly if it is the first character.
    cases before with
    | nil =>
        rw [List.nil_append, List.cons.injEq] at h
        rw [List.suffix_cons_iff, List.cons.injEq, List.suffix_nil] at hfeed
        -- The line feed behind which it stands is then the character before the text.
        rcases hfeed with ⟨hprevious, -⟩ | hnil
        · exact Or.inl ⟨hprevious.symm, h.1, rfl⟩
        · exact absurd hnil (List.cons_ne_nil _ _)
    | cons d before =>
        rw [List.cons_append, List.cons.injEq] at h
        rcases h with ⟨rfl, rfl⟩
        refine Or.inr ⟨byteLength before, ⟨before, after, rfl, rfl, ?_⟩, rfl⟩
        -- Later on it is one of the text itself.
        rcases List.suffix_cons_iff.mp hfeed with hsame | hlater
        · exact absurd (List.cons.inj hsame).2.symm (List.cons_ne_nil _ _)
        · exact hlater
  · rintro (⟨rfl, rfl, rfl⟩ | ⟨later, ⟨before, after, rfl, rfl, hfeed⟩, rfl⟩)
    · exact ⟨[], cs, rfl, rfl, List.suffix_refl _⟩
    · exact ⟨c :: before, after, rfl, rfl, List.suffix_cons_iff.mpr (Or.inr hfeed)⟩

end Text

open Text

namespace Report

section Tabs

/-- The offsets of tabs right after line feeds, in a text that starts at `offset`
    and comes after some character. -/
def tabScan (previous : Char) (offset : Nat) : List Char → List Nat
  | [] => []
  | c :: cs =>
    (if previous = '\n' ∧ c = '\t' then [offset] else []) ++ tabScan c (offset + c.utf8Size) cs

theorem mem_tabScan_iff {previous : Char} {offset place : Nat} {cs : List Char} :
    place ∈ tabScan previous offset cs ↔
      ∃ n, TabAfter previous cs n ∧ place = offset + n := by
  -- For every character before the text and every offset it starts at, since the
  -- rest has others.
  induction cs generalizing previous offset with
  | nil =>
      refine ⟨fun h => absurd h List.not_mem_nil, ?_⟩
      rintro ⟨n, htab, -⟩
      exact absurd htab (not_tabAfter_nil previous n)
  | cons c cs ih =>
      rw [tabScan, List.mem_append, List.mem_ite_nil_right, List.mem_singleton, ih]
      simp only [tabAfter_cons]
      constructor
      · rintro (⟨⟨rfl, rfl⟩, rfl⟩ | ⟨later, htab, rfl⟩)
        · exact ⟨0, Or.inl ⟨rfl, rfl, rfl⟩, rfl⟩
        · exact ⟨_, Or.inr ⟨later, htab, rfl⟩, Nat.add_assoc _ _ _⟩
      · rintro ⟨_, ⟨hprevious, hc, rfl⟩ | ⟨later, htab, rfl⟩, rfl⟩
        · exact Or.inl ⟨⟨hprevious, hc⟩, rfl⟩
        · exact Or.inr ⟨later, htab, (Nat.add_assoc _ _ _).symm⟩

theorem pairwise_tabScan (previous : Char) (offset : Nat) (cs : List Char) :
    (tabScan previous offset cs).Pairwise (· < ·) := by
  induction cs generalizing previous offset with
  | nil => exact List.Pairwise.nil
  | cons c cs ih =>
      refine List.pairwise_append.mpr ⟨?_, ih _ _, ?_⟩
      · -- The first character adds one offset at most.
        by_cases htab : previous = '\n' ∧ c = '\t'
        · rw [if_pos htab]
          exact List.pairwise_singleton _ _
        · rw [if_neg htab]
          exact List.Pairwise.nil
      · -- What comes later comes after at least one byte more.
        intro first hfirst place hplace
        rw [List.mem_ite_nil_right, List.mem_singleton] at hfirst
        rcases mem_tabScan_iff.mp hplace with ⟨n, -, rfl⟩
        have hpos := c.utf8Size_pos
        omega

/-- The offsets after a first line that starts at `offset`, however that starts. -/
def tabOffsetsAfter (offset : Nat) : List (List Char) → List Nat
  | [] => []
  | line :: rest => tabOffsets (offset + byteLength line) rest

/-- A line starts with its first character. -/
theorem tabOffsets_cons (offset : Nat) (c : Char) (line : List Char) (rest : List (List Char)) :
    tabOffsets offset ((c :: line) :: rest) =
      (if c = '\t' then [offset] else []) ++ tabOffsetsAfter offset ((c :: line) :: rest) := by
  simp only [tabOffsets, tabOffsetsAfter, List.head?_cons, Option.some.injEq]
  by_cases hc : c = '\t'
  · rw [if_pos hc, if_pos hc, List.singleton_append]
  · rw [if_neg hc, if_neg hc, List.nil_append]

theorem lines_cons_lineFeed (cs : List Char) : lines ('\n' :: cs) = ['\n'] :: lines cs :=
  if_pos rfl

/-- A character that ends no line is the first one of the line that it makes
    longer. -/
theorem exists_lines_cons {c : Char} (hc : c ≠ '\n') (cs : List Char) :
    ∃ line rest, lines (c :: cs) = (c :: line) :: rest ∧
      ∀ offset, tabOffsets (offset + byteLength line) rest = tabOffsetsAfter offset (lines cs) := by
  rw [lines, if_neg hc]
  cases lines cs with
  | nil => exact ⟨[], [], rfl, fun _ => rfl⟩
  | cons line rest => exact ⟨line, rest, rfl, fun _ => rfl⟩

/-- To cut a text into lines and add up their lengths is to look at each
    character and the one before it. -/
theorem tabOffsets_lines (cs : List Char) (offset : Nat) :
    tabOffsets offset (lines cs) = tabScan '\n' offset cs ∧
      ∀ previous, previous ≠ '\n' →
        tabOffsetsAfter offset (lines cs) = tabScan previous offset cs := by
  -- For a text that starts a line and one that goes on with it at the same time:
  -- each leads to the other, at a line feed and behind it.
  induction cs generalizing offset with
  | nil => exact ⟨rfl, fun _ _ => rfl⟩
  | cons c cs ih =>
      by_cases hc : c = '\n'
      · -- A line feed is a line by itself here, and what follows starts the next one.
        subst hc
        have hrest : tabOffsetsAfter offset (['\n'] :: lines cs)
            = tabScan '\n' (offset + Char.utf8Size '\n') cs := (ih _).1
        have htab : ∀ previous, ¬ (previous = '\n' ∧ '\n' = '\t') :=
          fun _ h => absurd h.2 (by decide)
        rw [lines_cons_lineFeed, tabOffsets_cons, if_neg (by decide), List.nil_append, hrest]
        refine ⟨?_, fun previous _ => ?_⟩
        · rw [tabScan, if_neg (htab _), List.nil_append]
        · rw [tabScan, if_neg (htab previous), List.nil_append]
      · -- Any other character goes on with its line, and what follows does too.
        rcases exists_lines_cons hc cs with ⟨line, rest, hlines, hafter⟩
        have hrest : tabOffsetsAfter offset ((c :: line) :: rest)
            = tabScan c (offset + c.utf8Size) cs := by
          rw [tabOffsetsAfter, byteLength_cons, ← Nat.add_assoc, hafter, (ih _).2 c hc]
        rw [hlines, tabOffsets_cons, hrest]
        refine ⟨?_, fun previous hprevious => ?_⟩
        · rw [tabScan]
          simp only [true_and]
        · rw [tabScan, if_neg fun h => hprevious h.1, List.nil_append]

/-- The errors about indentation: one for each line that starts with a tab, at
    its start, from the first line to the last. -/
def IsTabErrors (source : Source) (errors : List Message) : Prop :=
  ∃ offsets : List Nat, offsets.Pairwise (· < ·) ∧
    (∀ offset, offset ∈ offsets ↔ StartsWithTabAt source.chars offset) ∧
    errors = offsets.map fun offset =>
      { source := some source
        span := ⟨offset, 0⟩
        text := "line is indented with a tab"
        kind := .error }

theorem isTabErrors_tabErrors (source : Source) : IsTabErrors source (tabErrors source) := by
  -- The first line starts as if a line feed came before the text.
  refine ⟨tabOffsets 0 (lines source.chars), ?_, fun offset => ?_, rfl⟩
  · rw [(tabOffsets_lines source.chars 0).1]
    exact pairwise_tabScan _ _ _
  · rw [(tabOffsets_lines source.chars 0).1, mem_tabScan_iff, startsWithTabAt_iff]
    simp only [Nat.zero_add, exists_eq_right']

variable {source : Source} {errors : List Message}

/-- There are errors exactly if some line starts with a tab. -/
theorem IsTabErrors.ne_nil_iff (h : IsTabErrors source errors) :
    errors ≠ [] ↔ ∃ offset, StartsWithTabAt source.chars offset := by
  rcases h with ⟨offsets, -, hoffsets, rfl⟩
  constructor
  · intro hne
    rcases List.exists_mem_of_ne_nil _ fun hnil => hne (List.map_eq_nil_iff.mpr hnil) with
      ⟨offset, hmem⟩
    exact ⟨offset, (hoffsets offset).mp hmem⟩
  · rintro ⟨offset, hstarts⟩
    exact List.ne_nil_of_mem (List.mem_map_of_mem ((hoffsets offset).mpr hstarts))

/-- An error is about a place in the text. -/
theorem IsTabErrors.fitsIn_of_mem (h : IsTabErrors source errors) {message : Message}
    (hmem : message ∈ errors) :
    message.kind = .error ∧ message.source = some source ∧ message.span.FitsIn source.chars := by
  rcases h with ⟨offsets, -, hoffsets, rfl⟩
  rcases List.mem_map.mp hmem with ⟨offset, hoffset, rfl⟩
  rcases (hoffsets offset).mp hoffset with ⟨before, after, hcut, hlength, -⟩
  refine ⟨rfl, rfl, before, [], '\t' :: after, ?_, hlength, rfl⟩
  rw [hcut, List.append_nil]

end Tabs

section Reminders

theorem mentions_iff {needle cs : List Char} : mentions needle cs = true ↔ needle <:+: cs := by
  induction cs with
  | nil => rw [mentions, List.isEmpty_iff, List.infix_nil]
  | cons c cs ih =>
      rw [mentions, Bool.or_eq_true, ih, List.isPrefixOf_iff_prefix, List.infix_cons_iff]

/-- The warnings about literals: one for each literal of the text whose own text
    contains a reminder, from left to right. -/
def IsReminders (source : Source) (warnings : List Message) : Prop :=
  ∃ reminds : Span → Bool,
    (∀ span ∈ literals doubleQuote (bytes source.chars), reminds span = true ↔
      ∃ covered, source.textOf? span = some covered ∧ "TODO".toList <:+: covered) ∧
    warnings = ((literals doubleQuote (bytes source.chars)).filter reminds).map fun span =>
      { source := some source, span, text := "string mentions TODO", kind := .warning }

/-- Whether a literal contains a reminder. -/
def reminds (source : Source) (span : Span) : Bool :=
  (source.textOf? span).any (mentions "TODO".toList)

/-- The warnings of a source, written without the checks that its literals pass. -/
def reminders (source : Source) : List Message :=
  ((literals doubleQuote (bytes source.chars)).filter (reminds source)).map fun span =>
    { source := some source, span, text := "string mentions TODO", kind := .warning }

theorem isReminders_reminders (source : Source) : IsReminders source (reminders source) := by
  refine ⟨reminds source, fun span _ => ?_, rfl⟩
  rw [reminds, Option.any_eq_true]
  simp only [mentions_iff]

/-- Where all spans fit, the search for a reminder is a filter. -/
theorem reminderSpans?_eq {cs : List Char} {spans : List Span}
    (h : ∀ span ∈ spans, span.FitsIn cs) :
    reminderSpans? cs spans = some (spans.filter fun span =>
      (slice? span.start span.length cs).any (mentions "TODO".toList)) := by
  induction spans with
  | nil => rfl
  | cons span rest ih =>
      -- Each span can be cut out, so no look at one fails.
      rcases (h span List.mem_cons_self).exists_slice? with ⟨covered, hslice⟩
      rw [reminderSpans?, ih fun other hmem => h other (List.mem_cons_of_mem _ hmem),
        List.filter_cons, hslice]
      rfl

theorem reminders?_eq (source : Source) : reminders? source = some (reminders source) := by
  rw [reminders?, reminderSpans?_eq fun _ => fitsIn_of_mem_literals]
  rfl

/-- A warning is about a place in the text. -/
theorem fitsIn_of_mem_reminders {source : Source} {message : Message}
    (h : message ∈ reminders source) :
    message.kind = .warning ∧ message.source = some source ∧ message.span.FitsIn source.chars := by
  rcases List.mem_map.mp h with ⟨span, hspan, rfl⟩
  exact ⟨rfl, rfl, fitsIn_of_mem_literals (List.mem_filter.mp hspan).1⟩

end Reminders

end Report

end Diagnostics
