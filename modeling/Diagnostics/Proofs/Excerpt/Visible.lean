import Diagnostics.Proofs.Excerpt.Cut

/-!
# The Mark in a Cut Line

A cut is made around the mark, so that the mark should be what is seen. Whether
it is depends on three numbers: a fifth of the width, which is kept free to the
left of the mark, half of the width, which the middle of the mark is put at, and
the three columns that dots take at an edge.

If the fifth is three columns or more, the dots on the left stand in it and the
mark begins where it begins in the line. It begins in the left half, roughly, so
that the dots on the right do not reach it, and if it leaves a fifth free on both
sides they do not reach its end. A longer mark loses its end, and only that.

A terminal of fourteen columns is too narrow. There the fifth is two columns, and
dots can be put over the first column of the mark.

## Main definitions

* `MarkedLine.KeepsMark`: What a cut line leaves of the mark.

## Theorems

* `MarkedLine.leftDots_le_start_sub`: The dots on the left are left of the mark.
* `MarkedLine.start_sub_lt_of_wide`, `MarkedLine.stop_sub_le_of_short`: The dots
  on the right are right of its start, and of its end if it is short.
* `MarkedLine.keepsMark_clip`: So the mark is seen.
* `Excerpt.letters_displaced`: On fourteen columns it may be out of its place.
* `Excerpt.keepsMark_of_wide`: The same for an excerpt, and the narrowest
  terminal for which it is true.
-/

namespace Diagnostics

namespace MarkedLine

/-- The mark of a cut line, in a window that begins at the column `first`. It
    stands where it stands in the line, and begins with what it begins with there.
    If it leaves a fifth of the width free on both sides it is the whole mark, and
    otherwise a part of it from its start on. -/
structure KeepsMark (line : MarkedLine) (width first : Nat) (shown : MarkedLine) : Prop where
  indent_eq : shown.indent = List.replicate (line.start - first) ' '
  head?_eq : line.start < line.stop →
    shown.marked ≠ [] ∧ shown.marked.head? = line.chars[line.start]?
  whole : line.stop - line.start ≤ width - 2 * (width / 5) →
    shown.marked = line.marked ∧ shown.marker.length = max 1 (line.stop - line.start)
  isPrefix : shown.marked <+: line.marked

variable {line : MarkedLine} {width : Nat}

section Wide

variable (hwide : 3 ≤ width / 5) (hline : line.Ordered)

include hwide

/-- The dots on the left stand in the fifth of the width that is kept free. -/
theorem leftDots_le_start_sub : line.leftDots width ≤ line.start - line.windowOf width := by
  unfold leftDots windowOf
  rw [windowStart_eq]
  split
  · omega
  · exact Nat.zero_le _

include hline

/-- A mark that covers something begins left of the dots on the right. -/
theorem start_sub_lt_of_wide (hmark : line.start < line.stop) :
    line.start - line.windowOf width < width - line.rightDots width := by
  have hstop := hline.stop_le_length
  unfold rightDots windowOf
  rw [windowStart_eq]
  split
  · omega
  · omega

/-- One that leaves a fifth of the width free on both sides also ends there. -/
theorem stop_sub_le_of_short (hshort : line.stop - line.start ≤ width - 2 * (width / 5)) :
    line.stop - line.windowOf width ≤ width - line.rightDots width := by
  have hstart := hline.start_le_stop
  have hstop := hline.stop_le_length
  unfold rightDots windowOf
  rw [windowStart_eq]
  split
  · omega
  · omega

end Wide

theorem keepsMark_clip (hwide : 3 ≤ width / 5) (hwidth : width < line.chars.length)
    (hline : line.Ordered) : line.KeepsMark width (line.windowOf width) (line.clip width) := by
  have hle := Nat.le_of_lt hwidth
  have hcut := ordered_clip hle hline
  have hfirst : line.windowOf width ≤ line.start := windowStart_le_start _ _ _ _
  have hdots : line.leftDots width ≤ line.start - line.windowOf width :=
    leftDots_le_start_sub hwide
  have hstart : (line.clip width).start = line.start - line.windowOf width := by
    rw [start_clip hle, Nat.max_eq_left hdots]
  have hstop := stop_clip hle hline
  -- What is marked begins with the mark, and ends with it or before the dots.
  have hmarked : (line.clip width).marked = line.marked.take
      (line.windowOf width + (width - line.rightDots width) - line.start) := by
    rw [marked_clip hle hline, Nat.max_eq_left (by omega), Nat.min_comm, ← List.take_take,
      List.drop_take]
    rfl
  refine ⟨by rw [indent, hstart], ?_, ?_, hmarked ▸ List.take_prefix _ _⟩
  · intro hmark
    -- A mark that covers something.
    have hroom := start_sub_lt_of_wide hwide hline hmark
    refine ⟨List.length_pos_iff.mp ?_, ?_⟩
    · rw [length_marked _ hcut]
      omega
    · rw [hmarked, List.head?_take, if_neg (by omega), marked, List.head?_drop,
        List.getElem?_take_of_lt hmark]
  · intro hshort
    -- A mark that leaves a fifth free on both sides: nothing of it was taken off.
    have hroom := stop_sub_le_of_short hwide hline hshort
    have hordered := hline.start_le_stop
    refine ⟨?_, ?_⟩
    · rw [hmarked, List.take_of_length_le]
      rw [length_marked _ hline]
      omega
    · rw [length_marker]
      omega

end MarkedLine

namespace Excerpt

/-- The line of letters, with ten of them marked. -/
def markedLetters : MarkedLine :=
  ⟨' ' :: ' ' :: letters.drop 1, 3, 13⟩

/-- Fourteen columns of the letters begin with the second one, and dots are put
    over the fourth one, with which the mark begins. It cannot be read otherwise:
    only in a window that begins with the first column would the mark be in its
    place, and then the column after the dots would be another one. -/
theorem indent_ne_markedLetters {first left right : Nat}
    (hcut : markedLetters.IsCutAt 14 first left right (markedLetters.clip 14)) :
    (markedLetters.clip 14).indent.length ≠ markedLetters.start - first := by
  intro hindent
  -- The indent has three columns, which is what the mark has before it in the line.
  have hfirst : first = 0 := by
    have hlength : (markedLetters.clip 14).indent.length = 3 := by decide
    have hthree : 3 = 3 - first := hlength.symm.trans hindent
    omega
  subst hfirst
  have hleft : left ≤ 3 := by
    rw [hcut.left_eq]
    split <;> omega
  have hright : 3 < 14 - right := by
    rw [hcut.right_eq]
    split <;> omega
  -- So the fourth column would be seen, and it is a letter where a dot is shown.
  exact absurd (hcut.getElem?_between 3 hleft hright) (by decide)

/-- The excerpt of ten letters on a terminal of fourteen columns. -/
theorem letters_displaced :
    ∃ number column line shown, Span.Marks ⟨2, 10⟩ letters line ∧
      ofSpan? letters ⟨2, 10⟩ 0 = some ⟨number, column, line⟩ ∧ 14 < line.chars.length ∧
      ofSpan? letters ⟨2, 10⟩ 14 = some ⟨number, column, shown⟩ ∧
      (∃ first left right, line.IsCutAt 14 first left right shown) ∧
      ∀ first left right, line.IsCutAt 14 first left right shown →
        shown.indent.length ≠ line.start - first := by
  have hfits : (⟨2, 10⟩ : Span).FitsIn letters :=
    ⟨letters.take 2, (letters.drop 2).take 10, letters.drop 12, rfl, by decide, by decide⟩
  rcases exists_marks hfits with ⟨number, column, line, hmarks, hline, hexcerpt⟩
  have hwhole : ofSpan? letters ⟨2, 10⟩ 0 = some ⟨1, 2, markedLetters⟩ := by decide
  rw [hexcerpt, MarkedLine.fit_of_le (Or.inl rfl), Option.some.injEq, Excerpt.mk.injEq] at hwhole
  rcases hwhole with ⟨rfl, rfl, rfl⟩
  -- The cut is one window; any other would fail in the same way.
  exact ⟨1, 2, markedLetters, markedLetters.clip 14, hmarks, hexcerpt 0, by decide, hexcerpt 14,
    ⟨_, _, _, MarkedLine.isCutAt_clip (by decide) hline⟩,
    fun first left right => indent_ne_markedLetters⟩

/-- The mark of an excerpt is seen on every terminal of fifteen columns or more that
    is too narrow for the line. On one of fourteen columns there is a line whose
    mark is not where it should be, wherever the window begins. -/
theorem keepsMark_of_wide :
    (∀ cs span, span.FitsIn cs → ∃ number column line, span.Marks cs line ∧
      ofSpan? cs span 0 = some ⟨number, column, line⟩ ∧
      ∀ width, 3 ≤ width / 5 → width < line.chars.length →
        ∃ first left right shown, ofSpan? cs span width = some ⟨number, column, shown⟩ ∧
          line.IsCutAt width first left right shown ∧ line.KeepsMark width first shown) ∧
    ∃ cs span number column line shown, span.Marks cs line ∧
      ofSpan? cs span 0 = some ⟨number, column, line⟩ ∧ 14 < line.chars.length ∧
      ofSpan? cs span 14 = some ⟨number, column, shown⟩ ∧
      (∃ first left right, line.IsCutAt 14 first left right shown) ∧
      ∀ first left right, line.IsCutAt 14 first left right shown →
        shown.indent.length ≠ line.start - first := by
  refine ⟨?_, ?_⟩
  · -- From fifteen columns on.
    intro cs span hfits
    rcases exists_marks hfits with ⟨number, column, line, hmarks, hline, hexcerpt⟩
    refine ⟨number, column, line, hmarks, ?_, ?_⟩
    · rw [hexcerpt, MarkedLine.fit_of_le (Or.inl rfl)]
    · intro width hwide hwidth
      refine ⟨_, _, _, line.clip width, ?_, MarkedLine.isCutAt_clip hwidth hline,
        MarkedLine.keepsMark_clip hwide hwidth hline⟩
      rw [hexcerpt, MarkedLine.fit_of_lt (by omega) hwidth]
  · -- Fourteen columns.
    exact ⟨letters, ⟨2, 10⟩, letters_displaced⟩

/-- Twelve letters are marked on a terminal of fifteen columns. The dots on the left
    end right before the first of them, and those on the right hide the last ones. -/
theorem keepsMark_of_wide_letters :
    (⟨4, 12⟩ : Span).FitsIn letters ∧ 3 ≤ 15 / 5 ∧ ∃ line, Span.Marks ⟨4, 12⟩ letters line ∧
      15 < line.chars.length ∧
      ∃ first left right shown, ofSpan? letters ⟨4, 12⟩ 15 = some ⟨1, 4, shown⟩ ∧
        line.IsCutAt 15 first left right shown ∧ line.KeepsMark 15 first shown ∧
        shown.before = ['.', '.', '.'] ∧
        shown.marked = ['d', 'e', 'f', 'g', 'h', 'i', 'j', 'k', 'l'] ∧
        shown.after = ['.', '.', '.'] := by
  have hfits : (⟨4, 12⟩ : Span).FitsIn letters :=
    ⟨letters.take 4, (letters.drop 4).take 12, letters.drop 16, rfl, by decide, by decide⟩
  rcases keepsMark_of_wide.1 letters ⟨4, 12⟩ hfits with
    ⟨number, column, line, hmarks, hline, hcut⟩
  -- The line is known from the excerpt that shows all of it.
  have hwhole : ofSpan? letters ⟨4, 12⟩ 0 =
      some ⟨1, 4, ⟨' ' :: ' ' :: letters.drop 1, 5, 17⟩⟩ := by decide
  rw [hwhole, Option.some.injEq, Excerpt.mk.injEq] at hline
  rcases hline with ⟨rfl, rfl, rfl⟩
  rcases hcut 15 (by decide) (by decide) with ⟨first, left, right, shown, hshown, hcut, hkeeps⟩
  have hshows : ofSpan? letters ⟨4, 12⟩ 15 =
      some ⟨1, 4, ⟨['.', '.', '.', 'd', 'e', 'f', 'g', 'h', 'i', 'j', 'k', 'l', '.', '.', '.'],
        3, 12⟩⟩ := by decide
  refine ⟨hfits, by decide, _, hmarks, by decide, first, left, right, shown, hshown, hcut, hkeeps,
    ?_⟩
  rw [hshows, Option.some.injEq, Excerpt.mk.injEq] at hshown
  rw [← hshown.2.2]
  exact ⟨rfl, rfl, rfl⟩

end Excerpt

end Diagnostics
