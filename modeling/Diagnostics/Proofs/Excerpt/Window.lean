import Diagnostics.Proofs.Excerpt.Parts

/-!
# The Window onto a Long Line

Where the window stands and what a cut does to the bounds of the mark, in
numbers.

The placement is computed with signed numbers and pushed into the line last.
Since the push makes every negative placement zero, the same placement comes
out of natural numbers whose subtraction stops at zero, and that is the form
everything else uses: `windowStart_eq` is the only place where the sign and the
direction of rounding are looked at.

Dots are put over an edge by two steps that each know nothing of the other.
Together they leave the marker between the dots of both edges, which
`start_clip` and `stop_clip` say at once for all four combinations.

## Main definitions

* `MarkedLine.windowOf`: The first column of the window onto a line.
* `MarkedLine.leftDots`, `MarkedLine.rightDots`: The columns of a cut line that
  dots are put over.

## Theorems

* `windowStart_eq`: The placement in natural numbers.
* `windowStart_add_le`: The window lies in the line.
* `windowStart_le_start`, `start_le_windowStart_add`: The mark begins in the
  window, or right after it.
* `length_chars_clip`: A line is cut to the width.
* `start_clip`, `stop_clip`: The bounds of the mark after a cut.
* `ordered_clip`: A cut keeps the bounds in order.
-/

namespace Diagnostics

theorem windowStart_eq (length start stop width : Nat) :
    windowStart length start stop width
      = min (min ((start + stop - width) / 2) (start - width / 5)) (length - width) := by
  unfold windowStart
  have hcentred : (Int.tdiv ((start : Int) + stop - width) 2).toNat
      = (start + stop - width) / 2 := by
    -- In natural numbers what is negative is zero, and so is the pushed placement.
    rcases Int.le_total 0 ((start : Int) + stop - width) with h | h
    · rw [Int.tdiv_eq_ediv_of_nonneg h]
      omega
    · -- Rounded towards zero, a negative quotient is at most zero.
      have hneg := Int.tdiv_nonneg (Int.neg_nonneg_of_nonpos h) (by decide : (0 : Int) ≤ 2)
      rw [Int.neg_tdiv] at hneg
      omega
  simp only
  omega

theorem windowStart_add_le {length start stop width : Nat} (h : width ≤ length) :
    windowStart length start stop width + width ≤ length := by
  rw [windowStart_eq]
  omega

theorem windowStart_le_start (length start stop width : Nat) :
    windowStart length start stop width ≤ start := by
  rw [windowStart_eq]
  omega

theorem start_le_windowStart_add {length start stop width : Nat} (hstart : start ≤ stop)
    (hstop : stop ≤ length) : start ≤ windowStart length start stop width + width := by
  rw [windowStart_eq]
  omega

namespace MarkedLine

/-- The first column of the window of a width onto a line. -/
def windowOf (line : MarkedLine) (width : Nat) : Nat :=
  windowStart line.chars.length line.start line.stop width

/-- The columns at the left edge of a cut line that dots are put over. -/
def leftDots (line : MarkedLine) (width : Nat) : Nat :=
  if 3 < width ∧ 0 < line.windowOf width then 3 else 0

/-- The columns at the right edge of a cut line that dots are put over. -/
def rightDots (line : MarkedLine) (width : Nat) : Nat :=
  if 3 < width ∧ line.windowOf width + width < line.chars.length then 3 else 0

theorem length_ellipsis : ellipsis.length = 3 := rfl

theorem length_chars_window {line : MarkedLine} {offset width : Nat}
    (h : offset + width ≤ line.chars.length) :
    (line.window offset width).chars.length = width := by
  simp only [window, List.length_take, List.length_drop]
  omega

theorem stop_window {line : MarkedLine} {offset width : Nat}
    (h : offset + width ≤ line.chars.length) :
    (line.window offset width).stop = min (line.stop - offset) width := by
  have hlength := length_chars_window h
  simp only [window] at hlength ⊢
  rw [hlength]

theorem length_chars_elideLeft (line : MarkedLine) :
    line.elideLeft.chars.length = line.chars.length := by
  unfold elideLeft
  by_cases h : ellipsis.length < line.chars.length
  · rw [if_pos h]
    simp only [List.length_append, List.length_drop]
    omega
  · rw [if_neg h]

theorem length_chars_elideRight (line : MarkedLine) :
    line.elideRight.chars.length = line.chars.length := by
  unfold elideRight
  by_cases h : ellipsis.length < line.chars.length
  · rw [if_pos h]
    simp only [List.length_append, List.length_take]
    omega
  · rw [if_neg h]

theorem start_elideLeft (line : MarkedLine) :
    line.elideLeft.start = max line.start (if 3 < line.chars.length then 3 else 0) := by
  unfold elideLeft
  rw [length_ellipsis]
  by_cases h : 3 < line.chars.length
  · rw [if_pos h, if_pos h]
  · rw [if_neg h, if_neg h, Nat.max_eq_left (Nat.zero_le _)]

theorem stop_elideLeft {line : MarkedLine} (h : line.start ≤ line.stop) :
    line.elideLeft.stop = max line.stop line.elideLeft.start := by
  rw [start_elideLeft]
  unfold elideLeft
  rw [length_ellipsis]
  by_cases hlength : 3 < line.chars.length
  · rw [if_pos hlength, if_pos hlength]
  · rw [if_neg hlength, if_neg hlength]
    omega

theorem start_elideRight (line : MarkedLine) : line.elideRight.start = line.start := by
  unfold elideRight
  by_cases h : ellipsis.length < line.chars.length
  · rw [if_pos h]
  · rw [if_neg h]

theorem stop_elideRight {line : MarkedLine} (h : line.Ordered) :
    line.elideRight.stop
      = max (min line.stop (line.chars.length - if 3 < line.chars.length then 3 else 0))
        line.start := by
  have hstart := h.start_le_stop
  have hstop := h.stop_le_length
  unfold elideRight
  rw [length_ellipsis]
  by_cases hlength : 3 < line.chars.length
  · rw [if_pos hlength, if_pos hlength]
  · rw [if_neg hlength, if_neg hlength]
    omega

/-- The window onto a line with the dots of its left edge, if there are any. -/
def shownFrom (line : MarkedLine) (width : Nat) : MarkedLine :=
  if 0 < line.windowOf width then (line.window (line.windowOf width) width).elideLeft
  else line.window (line.windowOf width) width

theorem clip_eq (line : MarkedLine) (width : Nat) :
    line.clip width
      = if line.windowOf width + width < line.chars.length then (line.shownFrom width).elideRight
        else line.shownFrom width := rfl

theorem length_chars_shownFrom {line : MarkedLine} {width : Nat}
    (hwidth : width ≤ line.chars.length) : (line.shownFrom width).chars.length = width := by
  have hwindow : line.windowOf width + width ≤ line.chars.length := windowStart_add_le hwidth
  unfold shownFrom
  by_cases h : 0 < line.windowOf width
  · rw [if_pos h, length_chars_elideLeft, length_chars_window hwindow]
  · rw [if_neg h, length_chars_window hwindow]

theorem length_chars_clip {line : MarkedLine} {width : Nat}
    (hwidth : width ≤ line.chars.length) : (line.clip width).chars.length = width := by
  rw [clip_eq]
  by_cases h : line.windowOf width + width < line.chars.length
  · rw [if_pos h, length_chars_elideRight, length_chars_shownFrom hwidth]
  · rw [if_neg h, length_chars_shownFrom hwidth]

theorem start_shownFrom {line : MarkedLine} {width : Nat} (hwidth : width ≤ line.chars.length) :
    (line.shownFrom width).start
      = max (line.start - line.windowOf width) (line.leftDots width) := by
  have hwindow : line.windowOf width + width ≤ line.chars.length := windowStart_add_le hwidth
  unfold shownFrom leftDots
  by_cases h : 0 < line.windowOf width
  · rw [if_pos h, start_elideLeft, length_chars_window hwindow]
    simp only [h, and_true]
    rfl
  · rw [if_neg h]
    simp only [h, and_false, if_false, Nat.max_eq_left (Nat.zero_le _)]
    rfl

/-- A mark that begins inside the line begins inside the window, or right
    after it. -/
theorem start_sub_windowOf_le {line : MarkedLine} (hline : line.Ordered) (width : Nat) :
    line.start - line.windowOf width ≤ width := by
  have h : line.start ≤ line.windowOf width + width :=
    start_le_windowStart_add hline.start_le_stop hline.stop_le_length
  omega

theorem stop_shownFrom {line : MarkedLine} {width : Nat} (hwidth : width ≤ line.chars.length)
    (hline : line.Ordered) :
    (line.shownFrom width).stop
      = max (min (line.stop - line.windowOf width) width) (line.shownFrom width).start := by
  have hwindow : line.windowOf width + width ≤ line.chars.length := windowStart_add_le hwidth
  have hstart := start_sub_windowOf_le hline width
  have hordered := hline.start_le_stop
  have hstop := stop_window hwindow
  -- Cutting both ends at the same two edges keeps them in order.
  have hle : (line.window (line.windowOf width) width).start
      ≤ (line.window (line.windowOf width) width).stop := by
    rw [hstop]
    simp only [window]
    omega
  unfold shownFrom
  by_cases h : 0 < line.windowOf width
  · rw [if_pos h, stop_elideLeft hle, hstop]
  · rw [if_neg h, ← hstop, Nat.max_eq_left hle]

theorem leftDots_le (line : MarkedLine) (width : Nat) : line.leftDots width ≤ width := by
  unfold leftDots
  split
  · omega
  · exact Nat.zero_le _

theorem ordered_shownFrom {line : MarkedLine} {width : Nat} (hwidth : width ≤ line.chars.length)
    (hline : line.Ordered) : (line.shownFrom width).Ordered := by
  have hstop := stop_shownFrom hwidth hline
  have hstart := start_shownFrom hwidth
  have hle := start_sub_windowOf_le hline width
  have hdots := leftDots_le line width
  -- The start is in the window or right after it, and the dots are in it too.
  refine ⟨?_, ?_⟩
  · omega
  · rw [length_chars_shownFrom hwidth]
    omega

theorem start_clip {line : MarkedLine} {width : Nat} (hwidth : width ≤ line.chars.length) :
    (line.clip width).start
      = max (line.start - line.windowOf width) (line.leftDots width) := by
  rw [clip_eq, ← start_shownFrom hwidth]
  by_cases h : line.windowOf width + width < line.chars.length
  · rw [if_pos h, start_elideRight]
  · rw [if_neg h]

/-- The mark ends before the dots of the right edge, except that it never ends
    before it begins. -/
theorem stop_clip {line : MarkedLine} {width : Nat} (hwidth : width ≤ line.chars.length)
    (hline : line.Ordered) :
    (line.clip width).stop
      = max (min (line.stop - line.windowOf width) (width - line.rightDots width))
        (line.clip width).start := by
  have hordered := ordered_shownFrom hwidth hline
  have hstop := stop_shownFrom hwidth hline
  rw [start_clip hwidth, ← start_shownFrom hwidth, clip_eq]
  unfold rightDots
  by_cases h : line.windowOf width + width < line.chars.length
  · rw [if_pos h, stop_elideRight hordered, length_chars_shownFrom hwidth, hstop]
    simp only [h, and_true]
    -- The end was pushed right by the left dots and is now pushed left by the
    -- right ones, but never past the start.
    omega
  · rw [if_neg h, hstop]
    simp only [h, and_false, if_false, Nat.sub_zero]

theorem ordered_clip {line : MarkedLine} {width : Nat} (hwidth : width ≤ line.chars.length)
    (hline : line.Ordered) : (line.clip width).Ordered := by
  have hstop := stop_clip hwidth hline
  have hstart := start_clip hwidth
  have hle := start_sub_windowOf_le hline width
  have hdots := leftDots_le line width
  refine ⟨?_, ?_⟩
  · omega
  · rw [length_chars_clip hwidth]
    omega

theorem fit_of_le {line : MarkedLine} {width : Nat}
    (h : width = 0 ∨ line.chars.length ≤ width) : line.fit width = line := by
  rw [fit, if_neg (by omega)]

theorem fit_of_lt {line : MarkedLine} {width : Nat} (hwidth : 0 < width)
    (h : width < line.chars.length) : line.fit width = line.clip width := by
  rw [fit, if_pos ⟨hwidth, h⟩]

theorem ordered_fit {line : MarkedLine} (hline : line.Ordered) (width : Nat) :
    (line.fit width).Ordered := by
  by_cases h : 0 < width ∧ width < line.chars.length
  · rw [fit_of_lt h.1 h.2]
    exact ordered_clip (Nat.le_of_lt h.2) hline
  · rw [fit_of_le (by omega)]
    exact hline

end MarkedLine

end Diagnostics
