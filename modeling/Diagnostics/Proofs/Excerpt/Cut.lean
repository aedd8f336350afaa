import Diagnostics.Proofs.Excerpt.Exact

/-!
# What a Cut Line Shows

A cut line is described column by column. A column is covered by dots, which
stand at the edges where something was cut off, or it shows a column of the line,
the same distance behind the first column of the window. The two edges may meet:
in a window of four or five columns their dots lie on each other, and then there
is nothing in between.

The mark is described the same way. It is what the window leaves of it between
the dots, and so never lies over a dot. Its indent is as wide as what is before
it in the window, or as the dots on the left if there is less than that.

The cut is stated for a line with a mark, and such a line comes from a text.
`Span.Marks` says which one, without any measuring: the line that the span begins
on, expanded, and its pieces up to the start and the end of the span.

## Main definitions

* `MarkedLine.IsCutAt`: What a window from some column on shows of a line.
* `Span.Marks`: The line that a span begins on, with what it covers marked.

## Theorems

* `MarkedLine.getElem?_chars_clip`: A cut line, column by column.
* `MarkedLine.marked_clip`: What is marked of it.
* `MarkedLine.isCutAt_clip`: Both, with where the window stands.
* `Excerpt.marks_shownLine`: What an excerpt marks is what its span covers.
* `Excerpt.isCutAt_of_width`: An excerpt on a terminal that is too narrow.
-/

namespace Diagnostics

open Text

/-- Two pieces of lists are the same if they are as long as each other and agree
    column by column. -/
theorem drop_take_congr {α : Type} {xs ys : List α} {a b c d : Nat} (hlength : b - a = d - c)
    (h : ∀ i, i < b - a → xs[a + i]? = ys[c + i]?) : (xs.take b).drop a = (ys.take d).drop c := by
  rw [List.drop_take, List.drop_take, ← hlength]
  -- Column by column: in the piece both have the same, and behind it neither has one.
  refine List.ext_getElem? fun i => ?_
  by_cases hi : i < b - a
  · rw [List.getElem?_take_of_lt hi, List.getElem?_take_of_lt hi, List.getElem?_drop,
      List.getElem?_drop, h i hi]
  · rw [List.getElem?_take_eq_none (by omega), List.getElem?_take_eq_none (by omega)]

namespace MarkedLine

/-- What a terminal of some width shows of a longer line, when the window onto the
    line begins at the column `first` and dots are put over its outermost columns,
    `left` and `right` of them. -/
structure IsCutAt (line : MarkedLine) (width first left right : Nat) (shown : MarkedLine) :
    Prop where
  /-- The window lies in the line. -/
  first_add_le : first + width ≤ line.chars.length
  /-- The mark begins in the window, or right behind it. -/
  first_le : first ≤ line.start
  start_le : line.start ≤ first + width
  /-- A fifth of the width is left of the mark, or all that is there. -/
  context_le : min line.start (width / 5) ≤ line.start - first
  left_eq : left = if 3 < width ∧ 0 < first then 3 else 0
  right_eq : right = if 3 < width ∧ first + width < line.chars.length then 3 else 0
  length_eq : shown.displayed.length = width
  getElem?_left : ∀ i, i < left → shown.displayed[i]? = some '.'
  getElem?_right : ∀ i, width - right ≤ i → i < width → shown.displayed[i]? = some '.'
  getElem?_between : ∀ i, left ≤ i → i < width - right →
    shown.displayed[i]? = line.chars[first + i]?
  indent_eq : shown.indent = List.replicate (max (line.start - first) left) ' '
  length_before : shown.before.length = max (line.start - first) left
  /-- What is marked is what the mark and the columns between the dots have in
      common. -/
  marked_eq : shown.marked
    = (line.chars.take (min line.stop (first + (width - right)))).drop
        (max line.start (first + left))
  /-- No dot is marked. -/
  marked_between : shown.marked ≠ [] → left ≤ shown.before.length ∧
    shown.before.length + shown.marked.length ≤ width - right
  marker_eq : shown.marker
    = if 1 < shown.marked.length then List.replicate shown.marked.length '~' else ['^']

variable {line : MarkedLine} {width : Nat}

theorem getElem?_ellipsis (i : Nat) : ellipsis[i]? = if i < 3 then some '.' else none :=
  List.getElem?_replicate (n := 3)

theorem getElem?_chars_window {offset i : Nat} (hi : i < width) :
    (line.window offset width).chars[i]? = line.chars[offset + i]? := by
  rw [window, List.getElem?_take_of_lt hi, List.getElem?_drop]

theorem getElem?_chars_elideLeft (line : MarkedLine) (i : Nat) :
    line.elideLeft.chars[i]?
      = if 3 < line.chars.length ∧ i < 3 then some '.' else line.chars[i]? := by
  unfold elideLeft
  rw [length_ellipsis]
  -- A window of three columns or fewer is left as it is.
  by_cases hlong : 3 < line.chars.length
  · rw [if_pos hlong]
    simp only [hlong, true_and]
    by_cases hi : i < 3
    · rw [if_pos hi, List.getElem?_append_left hi, getElem?_ellipsis, if_pos hi]
    · rw [if_neg hi, List.getElem?_append_right (by rw [length_ellipsis]; omega), length_ellipsis,
        List.getElem?_drop, Nat.add_sub_cancel' (by omega)]
  · rw [if_neg hlong]
    simp only [hlong, false_and, if_false]

theorem getElem?_chars_elideRight {i : Nat} (hi : i < line.chars.length) :
    line.elideRight.chars[i]?
      = if 3 < line.chars.length ∧ line.chars.length - 3 ≤ i then some '.'
        else line.chars[i]? := by
  unfold elideRight
  rw [length_ellipsis]
  by_cases hlong : 3 < line.chars.length
  · -- The dots begin where the columns that are kept end.
    have hedge : (line.chars.take (line.chars.length - 3)).length = line.chars.length - 3 := by
      rw [List.length_take]
      omega
    rw [if_pos hlong]
    simp only [hlong, true_and]
    by_cases hdots : line.chars.length - 3 ≤ i
    · rw [if_pos hdots, List.getElem?_append_right (by rw [hedge]; exact hdots), hedge,
        getElem?_ellipsis, if_pos (by omega)]
    · rw [if_neg hdots, List.getElem?_append_left (by rw [hedge]; omega),
        List.getElem?_take_of_lt (by omega)]
  · rw [if_neg hlong]
    simp only [hlong, false_and, if_false]

theorem getElem?_chars_shownFrom (hwidth : width ≤ line.chars.length) {i : Nat} (hi : i < width) :
    (line.shownFrom width).chars[i]?
      = if i < line.leftDots width then some '.' else line.chars[line.windowOf width + i]? := by
  have hwindow : line.windowOf width + width ≤ line.chars.length := windowStart_add_le hwidth
  unfold shownFrom leftDots
  -- Dots are put over the left edge only if the window does not begin with the line.
  by_cases h : 0 < line.windowOf width
  · rw [if_pos h, getElem?_chars_elideLeft, length_chars_window hwindow, getElem?_chars_window hi]
    by_cases hlong : 3 < width
    · simp only [hlong, h, true_and, if_true]
    · simp only [hlong, false_and, if_false, Nat.not_lt_zero]
  · rw [if_neg h, getElem?_chars_window hi]
    simp only [h, and_false, if_false, Nat.not_lt_zero]

/-- A column of a cut line is covered by the dots of an edge, or shows a column of
    the line. -/
theorem getElem?_chars_clip (hwidth : width ≤ line.chars.length) {i : Nat} (hi : i < width) :
    (line.clip width).chars[i]?
      = if i < line.leftDots width ∨ width - line.rightDots width ≤ i then some '.'
        else line.chars[line.windowOf width + i]? := by
  have hlength := length_chars_shownFrom hwidth
  rw [clip_eq]
  unfold rightDots
  -- And over the right edge only if the window does not end with the line.
  by_cases h : line.windowOf width + width < line.chars.length
  · rw [if_pos h, getElem?_chars_elideRight (by rw [hlength]; exact hi), hlength,
      getElem?_chars_shownFrom hwidth hi]
    by_cases hlong : 3 < width
    · by_cases hdots : width - 3 ≤ i
      · simp only [hlong, h, hdots, and_self, if_true, or_true]
      · simp only [hlong, h, hdots, and_false, and_self, if_false, if_true, or_false]
    · simp only [hlong, false_and, if_false, Nat.sub_zero, Nat.not_le_of_lt hi, or_false]
  · rw [if_neg h, getElem?_chars_shownFrom hwidth hi]
    simp only [h, and_false, if_false, Nat.sub_zero, Nat.not_le_of_lt hi, or_false]

/-- A mark of a cut line is the piece of the line that the mark and the columns
    between the dots have in common. -/
theorem marked_clip (hwidth : width ≤ line.chars.length) (hline : line.Ordered) :
    (line.clip width).marked
      = (line.chars.take
          (min line.stop (line.windowOf width + (width - line.rightDots width)))).drop
          (max line.start (line.windowOf width + line.leftDots width)) := by
  have hfirst : line.windowOf width ≤ line.start := windowStart_le_start _ _ _ _
  have hstop := hline.start_le_stop
  rw [marked, stop_clip hwidth hline, start_clip hwidth]
  refine drop_take_congr (by omega) fun i hi => ?_
  -- A marked column is right of the dots on the left and left of those on the right.
  rw [getElem?_chars_clip hwidth (by omega), if_neg (by omega)]
  congr 1
  omega

theorem isCutAt_clip (hwidth : width < line.chars.length) (hline : line.Ordered) :
    line.IsCutAt width (line.windowOf width) (line.leftDots width) (line.rightDots width)
      (line.clip width) := by
  have hle := Nat.le_of_lt hwidth
  have hcut := ordered_clip hle hline
  have hdisplayed := displayed_eq_chars _ hcut
  have hstart : (line.clip width).start = max (line.start - line.windowOf width)
      (line.leftDots width) := start_clip hle
  -- Where the window lies is arithmetic; what each column shows was read off above.
  exact {
    first_add_le := windowStart_add_le hle
    first_le := windowStart_le_start _ _ _ _
    start_le := start_le_windowStart_add hline.start_le_stop hline.stop_le_length
    context_le := by
      rw [windowOf, windowStart_eq]
      omega
    left_eq := rfl
    right_eq := rfl
    length_eq := by rw [hdisplayed, length_chars_clip hle]
    getElem?_left := by
      intro i hi
      have hdots := leftDots_le line width
      rw [hdisplayed, getElem?_chars_clip hle (by omega), if_pos (Or.inl hi)]
    getElem?_right := by
      intro i hdots hi
      rw [hdisplayed, getElem?_chars_clip hle hi, if_pos (Or.inr hdots)]
    getElem?_between := by
      intro i hleft hright
      rw [hdisplayed, getElem?_chars_clip hle (by omega), if_neg (by omega)]
    indent_eq := by rw [indent, hstart]
    length_before := by rw [length_before _ hcut, hstart]
    marked_eq := marked_clip hle hline
    marked_between := by
      intro hmarked
      -- A column is still marked only if the bounds were not pushed together.
      have hlength := List.length_pos_iff.mpr hmarked
      rw [length_marked _ hcut] at hlength ⊢
      rw [length_before _ hcut]
      have hstop := stop_clip hle hline
      omega
    marker_eq := marker_eq _ hcut }

end MarkedLine

/-- The line that a span begins on, with its tabs expanded, and with the columns
    marked that the span covers of it. -/
def Span.Marks (span : Span) (cs : List Char) (line : MarkedLine) : Prop :=
  ∃ ls le lead upto text, IsLineStart cs span.start ls ∧ IsLineEnd cs span.start le ∧
    slice? ls (span.start - ls) cs = some lead ∧
    slice? ls (min span.stop le - ls) cs = some upto ∧
    slice? ls (le - ls) cs = some text ∧
    line = ⟨expandTabs text, (expandTabs lead).length, (expandTabs upto).length⟩

namespace Excerpt

/-- The line that an excerpt shows before any cut is the one that its span marks. -/
theorem marks_shownLine (opening lead covered after : List Char) (hopening : EndsLine opening)
    (hlead : IsPlain lead) :
    Span.Marks ⟨byteLength (opening ++ lead), byteLength covered⟩
      (opening ++ lead ++ (covered ++ after)) (shownLine lead covered after) := by
  rcases slices_of_line opening lead covered after with ⟨hfront, hcommon, hwhole⟩
  refine ⟨byteLength opening, byteLength (opening ++ lead ++ lineText (covered ++ after)),
    lead, lead ++ lineText covered, lead ++ lineText (covered ++ after),
    isLineStart_append opening lead _ hopening hlead, isLineEnd_append _ _, hfront, hcommon,
    hwhole, ?_⟩
  -- The bounds are the widths of the two pieces that begin with the line.
  rw [shownLine_eq lead covered after hlead, length_expandTabs, length_expandTabs]

/-- A span that fits a text marks a line of it, and its excerpts show this line as
    terminals of different widths do. -/
theorem exists_marks {cs : List Char} {span : Span} (hfits : span.FitsIn cs) :
    ∃ number column line, span.Marks cs line ∧ line.Ordered ∧
      ∀ width, ofSpan? cs span width = some ⟨number, column, line.fit width⟩ := by
  rcases exists_pieces hfits with ⟨opening, lead, covered, after, rfl, rfl, hopening, hlead⟩
  exact ⟨_, _, _, marks_shownLine opening lead covered after hopening hlead,
    ordered_shownLine lead covered after,
    fun width => ofSpan?_append opening lead covered after width hopening hlead⟩

/-- A span that fits a text marks a line of it. On a terminal of unknown width the
    excerpt shows this line, and on one that is too narrow for it a cut of it. -/
theorem isCutAt_of_width {cs : List Char} {span : Span} (hfits : span.FitsIn cs) :
    ∃ number column line, span.Marks cs line ∧ line.Ordered ∧
      ofSpan? cs span 0 = some ⟨number, column, line⟩ ∧
      ∀ width, 0 < width → width < line.chars.length →
        ∃ first left right shown, ofSpan? cs span width = some ⟨number, column, shown⟩ ∧
          line.IsCutAt width first left right shown := by
  rcases exists_marks hfits with ⟨number, column, line, hmarks, hline, hexcerpt⟩
  refine ⟨number, column, line, hmarks, hline, ?_, ?_⟩
  · rw [hexcerpt, MarkedLine.fit_of_le (Or.inl rfl)]
  · intro width hpos hwidth
    refine ⟨_, _, _, line.clip width, ?_, MarkedLine.isCutAt_clip hwidth hline⟩
    rw [hexcerpt, MarkedLine.fit_of_lt hpos hwidth]

/-- A tab and letters, eighteen columns in all. -/
def letters : List Char :=
  ['\t', 'a', 'b', 'c', 'd', 'e', 'f', 'g', 'h', 'i', 'j', 'k', 'l', 'm', 'n', 'o', 'p']

/-- Two letters are marked. In nine columns they are shown between the dots of both
    edges, and in five columns there is nothing between the dots. -/
theorem isCutAt_of_width_letters :
    (⟨8, 2⟩ : Span).FitsIn letters ∧ ∃ line, Span.Marks ⟨8, 2⟩ letters line ∧
      (0 < 9 ∧ 9 < line.chars.length ∧
        ∃ first left right shown, ofSpan? letters ⟨8, 2⟩ 9 = some ⟨1, 8, shown⟩ ∧
          line.IsCutAt 9 first left right shown ∧
          shown.displayed = ['.', '.', '.', 'g', 'h', 'i', '.', '.', '.'] ∧
          shown.marked = ['h', 'i']) ∧
      (0 < 5 ∧ 5 < line.chars.length ∧
        ∃ first left right shown, ofSpan? letters ⟨8, 2⟩ 5 = some ⟨1, 8, shown⟩ ∧
          line.IsCutAt 5 first left right shown ∧
          shown.displayed = ['.', '.', '.', '.', '.'] ∧ shown.marked = []) := by
  have hfits : (⟨8, 2⟩ : Span).FitsIn letters :=
    ⟨letters.take 8, ['h', 'i'], letters.drop 10, rfl, by decide, by decide⟩
  rcases isCutAt_of_width hfits with ⟨number, column, line, hmarks, -, hline, hcut⟩
  -- The line is known from the excerpt that shows all of it.
  have hwhole : ofSpan? letters ⟨8, 2⟩ 0 =
      some ⟨1, 8, ⟨' ' :: ' ' :: letters.drop 1, 9, 11⟩⟩ := by decide
  rw [hwhole, Option.some.injEq, Excerpt.mk.injEq] at hline
  rcases hline with ⟨rfl, rfl, rfl⟩
  rcases hcut 9 (by decide) (by decide) with ⟨first, left, right, shown, hshown, hnine⟩
  rcases hcut 5 (by decide) (by decide) with ⟨first', left', right', shown', hshown', hfive⟩
  have hshows : ofSpan? letters ⟨8, 2⟩ 9 =
      some ⟨1, 8, ⟨['.', '.', '.', 'g', 'h', 'i', '.', '.', '.'], 4, 6⟩⟩ := by decide
  have hshows' : ofSpan? letters ⟨8, 2⟩ 5 = some ⟨1, 8, ⟨['.', '.', '.', '.', '.'], 3, 3⟩⟩ := by
    decide
  refine ⟨hfits, _, hmarks, ⟨by decide, by decide, _, _, _, _, hshown, hnine, ?_⟩,
    by decide, by decide, _, _, _, _, hshown', hfive, ?_⟩
  · -- In nine columns two of the letters are seen.
    rw [hshows, Option.some.injEq, Excerpt.mk.injEq] at hshown
    rw [← hshown.2.2]
    exact ⟨rfl, rfl⟩
  · -- In five there is no room for them.
    rw [hshows', Option.some.injEq, Excerpt.mk.injEq] at hshown'
    rw [← hshown'.2.2]
    exact ⟨rfl, rfl⟩

end Excerpt

end Diagnostics
