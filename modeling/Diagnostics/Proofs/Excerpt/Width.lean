import Diagnostics.Proofs.Excerpt.Exact

/-!
# The Width of an Excerpt

An excerpt for a terminal of some width never shows a line wider than that. The
line under it is wider by at most one column, and by none in all but two kinds
of place, which `length_under_le_iff` gives exactly.

A circumflex takes a column even if nothing is marked. At the end of a line
that fills the terminal, and also of one that was cut to fill it, no column is
left for it. The other kind of place needs a terminal of one column: the window
is centred on a point by moving half a column to the left, which is rounded so
that the point comes to stand right after the only column there is.

## Main definitions

* `MarkedLine.under`: What stands under a line.

## Theorems

* `length_displayed_fit_le`: A line is never shown wider than the terminal.
* `length_under_fit_le_iff`: When what stands under a line fits, by the marks.
* `length_under_le_iff`: The same for an excerpt, by its text and span.
-/

namespace Diagnostics

open Text

namespace MarkedLine

/-- What stands under a line: its indent and its marker. -/
def under (line : MarkedLine) : List Char :=
  line.indent ++ line.marker

theorem length_under (line : MarkedLine) :
    line.under.length = line.start + max 1 (line.stop - line.start) := by
  rw [under, List.length_append, indent, List.length_replicate, length_marker]

theorem length_displayed_fit_le {line : MarkedLine} (hline : line.Ordered) {width : Nat}
    (hwidth : 0 < width) : (line.fit width).displayed.length ≤ width := by
  rw [displayed_eq_chars _ (ordered_fit hline width)]
  -- A longer line is cut to the width, and any other is no longer than it.
  by_cases h : width < line.chars.length
  · rw [fit_of_lt hwidth h, length_chars_clip (Nat.le_of_lt h)]
  · rw [fit_of_le (by omega)]
    omega

/-- A mark of a column or more keeps its marker inside the width. -/
theorem length_under_clip_of_lt {line : MarkedLine} (hline : line.Ordered) {width : Nat}
    (hwidth : 0 < width) (h : width < line.chars.length) (hmark : line.start < line.stop) :
    (line.clip width).under.length ≤ width := by
  have hinside := hline.stop_le_length
  have hdots : line.leftDots width < width := by
    unfold leftDots
    split <;> omega
  -- The window is placed by the middle of the mark, which is right of its start.
  have hstart : line.start - line.windowOf width < width := by
    rw [windowOf, windowStart_eq]
    omega
  rw [length_under, stop_clip (Nat.le_of_lt h) hline, start_clip (Nat.le_of_lt h)]
  omega

/-- A point keeps its circumflex inside the width exactly if it stands in the
    window and not right after it. -/
theorem length_under_clip_of_eq {line : MarkedLine} (hline : line.Ordered) {width : Nat}
    (hwidth : 0 < width) (h : width < line.chars.length) (hpoint : line.start = line.stop) :
    (line.clip width).under.length ≤ width ↔ line.start < line.windowOf width + width := by
  have hdots : line.leftDots width < width := by
    unfold leftDots
    split <;> omega
  rw [length_under, stop_clip (Nat.le_of_lt h) hline, start_clip (Nat.le_of_lt h)]
  omega

theorem start_lt_windowOf_add_iff {line : MarkedLine} {width : Nat} (hwidth : 0 < width)
    (h : width < line.chars.length) (hpoint : line.start = line.stop)
    (hinside : line.start ≤ line.chars.length) :
    line.start < line.windowOf width + width ↔
      ¬ (line.start = line.chars.length ∨ width = 1 ∧ 0 < line.start) := by
  rw [windowOf, windowStart_eq, ← hpoint]
  omega

theorem length_under_fit_le_iff {line : MarkedLine} (hline : line.Ordered) {width : Nat}
    (hwidth : 0 < width) :
    (line.fit width).under.length ≤ width ↔
      ¬ (line.start = line.stop ∧ width ≤ line.chars.length ∧
        (line.start = line.chars.length ∨ width = 1 ∧ 0 < line.start)) := by
  have hordered := hline.start_le_stop
  have hinside := hline.stop_le_length
  by_cases h : width < line.chars.length
  · rw [fit_of_lt hwidth h]
    -- In a cut line only a point can stick out, and only behind the window.
    by_cases hpoint : line.start = line.stop
    · rw [length_under_clip_of_eq hline hwidth h hpoint,
        start_lt_windowOf_add_iff hwidth h hpoint (Nat.le_trans hordered hinside)]
      simp only [hpoint, Nat.le_of_lt h, true_and]
    · simp only [hpoint, false_and, not_false_eq_true, iff_true]
      exact length_under_clip_of_lt hline hwidth h (by omega)
  · -- An uncut line has no room at its end only if it is as wide as the terminal.
    rw [fit_of_le (by omega), length_under]
    omega

/-- Where the circumflex sticks out, it does so by its own column. -/
theorem length_under_fit_le {line : MarkedLine} (hline : line.Ordered) {width : Nat}
    (hwidth : 0 < width) : (line.fit width).under.length ≤ width + 1 := by
  have hfit := ordered_fit hline width
  have hlength := length_displayed_fit_le hline hwidth
  have hstart := hfit.start_le_stop
  have hstop := hfit.stop_le_length
  rw [displayed_eq_chars _ hfit] at hlength
  rw [length_under]
  omega

end MarkedLine

namespace Excerpt

/-- The bounds of a mark that sticks out, said by the text: the line has
    nothing after the place, or the span is a point behind something in a
    single column. -/
theorem sticksOut_iff {lead covered after : List Char} {width : Nat} :
    (lineText covered = [] ∧ width ≤ expandedWidth (lead ++ lineText (covered ++ after)) ∧
        (lineText (covered ++ after) = [] ∨ width = 1 ∧ lead ≠ [])) ↔
      (lineText (covered ++ after) = [] ∧
          width ≤ expandedWidth (lead ++ lineText (covered ++ after)) ∨
        width = 1 ∧ covered = [] ∧ lead ≠ []) := by
  rcases exists_lineText_append covered after with ⟨more, hline, hcase⟩
  constructor
  · rintro ⟨hcovered, hwidth, htail | ⟨hone, hlead⟩⟩
    · exact Or.inl ⟨htail, hwidth⟩
    · rcases hcase with hall | hmore
      · exact Or.inr ⟨hone, by rw [← hall, hcovered], hlead⟩
      · -- What is covered begins with the boundary that ends the line.
        exact Or.inl ⟨by rw [hline, hcovered, hmore, List.append_nil], hwidth⟩
  · rintro (⟨htail, hwidth⟩ | ⟨hone, hcovered, hlead⟩)
    · rw [hline] at htail
      exact ⟨(List.append_eq_nil_iff.mp htail).1, hwidth, Or.inl (by rw [hline, htail])⟩
    · -- In a single column a line with something before the place is full.
      have hpos := (expandedWidth_pos_iff lead).mpr hlead
      have hle := expandedWidth_le_append lead (lineText (covered ++ after))
      exact ⟨by rw [hcovered]; rfl, by omega, Or.inr ⟨hone, hlead⟩⟩

/-- An excerpt for a terminal of some width is as wide as that or narrower,
    and so is what stands under it, unless the span begins at the end of a line
    that fills the terminal or is a point inside the line on a terminal of one
    column. Then it is a column wider. -/
theorem length_under_le_iff {cs : List Char} {span : Span} {width : Nat} {e : Excerpt}
    (hwidth : 0 < width) (h : ofSpan? cs span width = some e) :
    e.shown.displayed.length ≤ width ∧ e.shown.under.length ≤ width + 1 ∧
      ∃ ls le line, IsLineStart cs span.start ls ∧ IsLineEnd cs span.start le ∧
        slice? ls (le - ls) cs = some line ∧
        (e.shown.under.length ≤ width ↔
          ¬ (span.start = le ∧ width ≤ (expandTabs line).length ∨
            width = 1 ∧ span.length = 0 ∧ ls < span.start)) := by
  rcases exists_pieces_of_ofSpan? h with
    ⟨opening, lead, covered, after, rfl, rfl, hopening, hlead, hshown⟩
  rw [hshown]
  have hline := ordered_shownLine lead covered after
  rcases exists_closing (covered ++ after) with ⟨closing, hrest, -⟩
  refine ⟨MarkedLine.length_displayed_fit_le hline hwidth,
    MarkedLine.length_under_fit_le hline hwidth, byteLength opening,
    byteLength (opening ++ lead ++ lineText (covered ++ after)),
    lead ++ lineText (covered ++ after),
    isLineStart_append opening lead _ hopening hlead, isLineEnd_append _ _,
    slice?_of_line opening lead hrest, ?_⟩
  -- The place is the end of the line if nothing of the line follows it.
  have hend : byteLength (opening ++ lead)
      = byteLength (opening ++ lead ++ lineText (covered ++ after))
        ↔ lineText (covered ++ after) = [] := by
    rw [byteLength_append (opening ++ lead), ← byteLength_eq_zero_iff]
    omega
  -- And it is not the start of the line if something of it comes before.
  have hstart : byteLength opening < byteLength (opening ++ lead) ↔ lead ≠ [] := by
    rw [byteLength_append, ne_eq, ← byteLength_eq_zero_iff]
    omega
  -- The bounds of the mark are measured columns, which are put back into text.
  rw [MarkedLine.length_under_fit_le_iff hline hwidth]
  simp only [shownLine_eq lead covered after hlead, length_expandTabs,
    expandedWidth_eq_append_iff, expandedWidth_pos_iff, hend, hstart, byteLength_eq_zero_iff]
  rw [sticksOut_iff]

/-- A line of nineteen columns. -/
def foxes : List Char :=
  ['t', 'h', 'e', ' ', 'q', 'u', 'i', 'c', 'k', ' ', 'b', 'r', 'o', 'w', 'n', ' ', 'f', 'o', 'x']

/-- A mark in the middle of the line, which has to be cut at both ends. -/
theorem length_under_le_iff_foxes :
    0 < 8 ∧ ∃ e, ofSpan? foxes ⟨10, 5⟩ 8 = some e ∧ e.shown.displayed.length ≤ 8 ∧
      e.shown.under.length ≤ 8 := by
  have hsome : (ofSpan? foxes ⟨10, 5⟩ 8).isSome = true := by decide
  rcases Option.isSome_iff_exists.mp hsome with ⟨e, he⟩
  rcases length_under_le_iff (by decide) he with ⟨hshown, -, ls, le, line, -, hend, -, hiff⟩
  refine ⟨by decide, e, he, hshown, hiff.mpr ?_⟩
  rintro (⟨hle, -⟩ | ⟨hone, -, -⟩)
  · -- The line ends with the text, behind the place.
    rcases hend.closes with hstop | ⟨j, a, c, b, htext, hc, -, -⟩
    · exact absurd (hle.trans hstop) (by decide)
    · have hplain : foxes.all (fun c => !isBoundary c) = true := by decide
      have hmem : c ∈ foxes := by
        rw [htext]
        exact List.mem_append_right a List.mem_cons_self
      have hfalse := List.all_eq_true.mp hplain c hmem
      rw [hc] at hfalse
      exact absurd hfalse (by decide)
  · exact absurd hone (by decide)

/-- At the end of a line as wide as the terminal the circumflex sticks out. -/
theorem under_sticks_out_at_end :
    ∃ e, ofSpan? ['a', 'b', 'c'] ⟨3, 0⟩ 3 = some e ∧ ¬ e.shown.under.length ≤ 3 :=
  ⟨_, rfl, by decide⟩

end Excerpt

end Diagnostics
