import Diagnostics.Excerpt.Window

/-!
# The Parts of a Marked Line

A marked line is two numbers beside a line, and the three parts are cut out of
it each time they are looked at. Nothing is lost or shown twice by that as long
as the numbers are in order and inside the line, which is what `Ordered` asks.
Bounds that come from measuring are put in order by `MarkedLine.ofBounds`, and
a cut keeps them in order, so every line that is ever displayed is ordered.

What stands under the line depends on the parts only through their lengths:
the indent is as wide as what comes before the mark, and the marker as what is
marked.

## Main definitions

* `MarkedLine.Ordered`: Bounds in order and inside the line.
* `MarkedLine.displayed`: The line as its three parts show it.

## Theorems

* `ordered_ofBounds`: Bounds drawn in are in order.
* `before_append_marked`: The mark goes on from what comes before it.
* `displayed_eq_chars`: The three parts are the line.
* `indent_eq`, `marker_eq`: What stands under the line, by the parts.
* `mem_under`, `not_mem_under`: The signs that it is written with, and no other.
-/

namespace Diagnostics

namespace MarkedLine

/-- The marked columns begin before they end, and end inside the line. -/
structure Ordered (line : MarkedLine) : Prop where
  start_le_stop : line.start ≤ line.stop
  stop_le_length : line.stop ≤ line.chars.length

/-- The line as its three parts show it, one after the other. -/
def displayed (line : MarkedLine) : List Char :=
  line.before ++ line.marked ++ line.after

theorem ordered_ofBounds (chars : List Char) (start stop : Nat) :
    (ofBounds chars start stop).Ordered := by
  unfold ofBounds
  refine ⟨?_, ?_⟩
  · simp only
    omega
  · simp only
    omega

theorem before_append_marked (line : MarkedLine) (h : line.Ordered) :
    line.before ++ line.marked = line.chars.take line.stop := by
  have hbefore : line.before = (line.chars.take line.stop).take line.start := by
    rw [List.take_take, Nat.min_eq_left h.start_le_stop, before]
  rw [hbefore, marked, List.take_append_drop]

theorem displayed_eq_chars (line : MarkedLine) (h : line.Ordered) :
    line.displayed = line.chars := by
  rw [displayed, before_append_marked line h, after, List.take_append_drop]

theorem length_before (line : MarkedLine) (h : line.Ordered) :
    line.before.length = line.start := by
  have hstart := h.start_le_stop
  have hstop := h.stop_le_length
  rw [before, List.length_take]
  omega

theorem length_marked (line : MarkedLine) (h : line.Ordered) :
    line.marked.length = line.stop - line.start := by
  have hstop := h.stop_le_length
  rw [marked, List.length_drop, List.length_take, Nat.min_eq_left hstop]

/-- The marker takes a column even if nothing is marked. -/
theorem length_marker (line : MarkedLine) :
    line.marker.length = max 1 (line.stop - line.start) := by
  unfold marker
  by_cases h : 1 < line.stop - line.start
  · rw [if_pos h, List.length_replicate]
    omega
  · rw [if_neg h, List.length_singleton]
    omega

theorem indent_eq (line : MarkedLine) (h : line.Ordered) :
    line.indent = List.replicate line.before.length ' ' := by
  rw [indent, length_before line h]

theorem marker_eq (line : MarkedLine) (h : line.Ordered) :
    line.marker
      = if 1 < line.marked.length then List.replicate line.marked.length '~' else ['^'] := by
  rw [marker, length_marked line h]

/-- What stands under a line is written with three signs. -/
theorem mem_under {line : MarkedLine} {c : Char} (h : c ∈ line.indent ++ line.marker) :
    c = ' ' ∨ c = '~' ∨ c = '^' := by
  rcases List.mem_append.mp h with hindent | hmarker
  · exact Or.inl (List.eq_of_mem_replicate hindent)
  · right
    unfold marker at hmarker
    by_cases hwide : 1 < line.stop - line.start
    · rw [if_pos hwide] at hmarker
      exact Or.inl (List.eq_of_mem_replicate hmarker)
    · rw [if_neg hwide] at hmarker
      exact Or.inr (List.mem_singleton.mp hmarker)

theorem not_mem_under (line : MarkedLine) {c : Char} (hblank : c ≠ ' ') (htilde : c ≠ '~')
    (hcaret : c ≠ '^') : c ∉ line.indent ++ line.marker := by
  intro hmem
  rcases mem_under hmem with h | h | h
  · exact hblank h
  · exact htilde h
  · exact hcaret h

end MarkedLine

end Diagnostics
