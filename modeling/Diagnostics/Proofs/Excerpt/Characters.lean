import Diagnostics.Proofs.Excerpt.Exact
import Diagnostics.Proofs.Text.Tabs

/-!
# What an Excerpt Is Made of

Every character that an excerpt shows was on the line, or is a blank that a tab
was written out as, or a dot of an ellipsis. Cutting a line only leaves
characters away, and what is put over an edge is dots.

So what is not in a text is not in an excerpt of it either, unless it is a blank
or a dot, and tabs and boundaries never are. Nothing here looks at where the
window stands or at what is marked.

## Theorems

* `MarkedLine.mem_chars_fit`: A cut puts in dots.
* `Excerpt.mem_chars_shown`: Where the characters of an excerpt come from.
-/

namespace Diagnostics

namespace MarkedLine

variable {line : MarkedLine} {c : Char}

theorem eq_dot_of_mem_ellipsis (h : c ∈ ellipsis) : c = '.' :=
  List.eq_of_mem_replicate (n := 3) h

theorem mem_chars_window {offset width : Nat} (h : c ∈ (line.window offset width).chars) :
    c ∈ line.chars :=
  List.mem_of_mem_drop (List.mem_of_mem_take h)

theorem mem_chars_elideLeft (h : c ∈ line.elideLeft.chars) : c = '.' ∨ c ∈ line.chars := by
  unfold elideLeft at h
  by_cases hlong : ellipsis.length < line.chars.length
  · rw [if_pos hlong] at h
    rcases List.mem_append.mp h with hdots | hrest
    · exact Or.inl (eq_dot_of_mem_ellipsis hdots)
    · exact Or.inr (List.mem_of_mem_drop hrest)
  · rw [if_neg hlong] at h
    exact Or.inr h

theorem mem_chars_elideRight (h : c ∈ line.elideRight.chars) : c = '.' ∨ c ∈ line.chars := by
  unfold elideRight at h
  by_cases hlong : ellipsis.length < line.chars.length
  · rw [if_pos hlong] at h
    rcases List.mem_append.mp h with hrest | hdots
    · exact Or.inr (List.mem_of_mem_take hrest)
    · exact Or.inl (eq_dot_of_mem_ellipsis hdots)
  · rw [if_neg hlong] at h
    exact Or.inr h

/-- A cut line is made of the line and of dots. -/
theorem mem_chars_clip {width : Nat} (h : c ∈ (line.clip width).chars) :
    c = '.' ∨ c ∈ line.chars := by
  let offset := windowStart line.chars.length line.start line.stop width
  -- What there is before the dots of the right edge.
  have hleft (h : c ∈ (if 0 < offset then (line.window offset width).elideLeft
      else line.window offset width).chars) : c = '.' ∨ c ∈ line.chars := by
    by_cases hcut : 0 < offset
    · rw [if_pos hcut] at h
      exact (mem_chars_elideLeft h).imp_right mem_chars_window
    · rw [if_neg hcut] at h
      exact Or.inr (mem_chars_window h)
  unfold clip at h
  dsimp only at h
  by_cases hcut : offset + width < line.chars.length
  · rw [if_pos hcut] at h
    exact (mem_chars_elideRight h).elim Or.inl hleft
  · rw [if_neg hcut] at h
    exact hleft h

theorem mem_chars_fit {width : Nat} (h : c ∈ (line.fit width).chars) :
    c = '.' ∨ c ∈ line.chars := by
  unfold fit at h
  by_cases hcut : 0 < width ∧ width < line.chars.length
  · rw [if_pos hcut] at h
    exact mem_chars_clip h
  · rw [if_neg hcut] at h
    exact Or.inr h

end MarkedLine

namespace Excerpt

open Text

/-- What an excerpt shows is a dot or a blank, or comes from the text. No tab and
    no boundary does. -/
theorem mem_chars_shown {cs : List Char} {span : Span} {width : Nat} {e : Excerpt}
    (h : ofSpan? cs span width = some e) {c : Char} (hc : c ∈ e.shown.chars) :
    c = '.' ∨ c = ' ' ∨ c ∈ cs ∧ c ≠ '\t' ∧ isBoundary c = false := by
  rcases exists_pieces_of_ofSpan? h with ⟨opening, lead, covered, after, rfl, -, -, -, hshown⟩
  rw [hshown] at hc
  -- From the cut line to the line, and from that to the text that was expanded.
  refine (MarkedLine.mem_chars_fit hc).imp_right fun hline => ?_
  refine (mem_expandTabs hline).imp_right fun ⟨hline, htab⟩ => ?_
  have hrest : c ∈ lead ++ (covered ++ after) := (List.takeWhile_prefix _).subset hline
  rw [List.append_assoc]
  exact ⟨List.mem_append_right opening hrest, htab, isPlain_lineText _ c hline⟩

end Excerpt

end Diagnostics
