import Diagnostics.Proofs.Excerpt.Exact
import Diagnostics.Proofs.Text.Numbering

/-!
# The Line that an Excerpt Names

An excerpt names a line by its number and shows a line. The number is counted
in the text before the span and the line is read off the text after it, so it
takes an argument that the two are the same line of the text, split as a whole.

They are, at every place but one kind. Between a carriage return and its line
feed the excerpt names the line after the pair, while the place belongs to the
boundary that ends the line before it. Such an excerpt shows an empty line in
column zero, and the line it names starts a byte after the place, whatever that
line says. `namesShownLine_iff` makes the exception exact.

## Main definitions

* `NamesShownLine`: An excerpt whose number and column belong to the line that
  it shows.

## Theorems

* `namesShownLine_iff`: The excerpts that name the line they show.
-/

namespace Diagnostics

open Text

namespace Excerpt

/-- The excerpt's number, from one, is that of the line it shows, and its
    column leads from the start of that line to the given offset. -/
def NamesShownLine (e : Excerpt) (cs : List Char) (offset : Nat) : Prop :=
  ∃ n line, e.line = n + 1 ∧ (splitLines cs)[n]? = some line ∧
    e.shown.displayed = expandTabs line.text ∧ Line.startOf (splitLines cs) n + e.column = offset

/-- The excerpt of a span on a terminal of unknown width names the line that it
    shows unless the span begins inside a pair. There it shows nothing, in
    column zero, and names the line that starts after the pair. -/
theorem namesShownLine_iff {cs : List Char} {span : Span} (hfits : span.FitsIn cs) :
    ∃ e, ofSpan? cs span 0 = some e ∧
      (e.NamesShownLine cs span.start ↔ ¬ InsidePair cs span.start) ∧
      (InsidePair cs span.start → e.column = 0 ∧ e.shown.displayed = [] ∧
        ∃ n, e.line = n + 1 ∧ Line.startOf (splitLines cs) n = span.start + 1) := by
  rcases exists_pieces hfits with ⟨opening, lead, covered, after, rfl, rfl, hopening, hlead⟩
  refine ⟨_, ofSpan?_append opening lead covered after 0 hopening hlead, ?_⟩
  rw [MarkedLine.fit_of_le (Or.inl rfl)]
  have hshown := displayed_shownLine lead covered after hlead
  by_cases hinside : InsidePair (opening ++ lead ++ (covered ++ after))
      (byteLength (opening ++ lead))
  · -- Inside a pair nothing of the line lies before the place.
    have hnil : lead = [] := lead_eq_nil hlead hinside
    subst hnil
    have hlf := ((insidePair_append_iff _ _).mp hinside).2
    simp only [List.append_nil] at hinside ⊢
    have hstart := startOf_of_insidePair opening (covered ++ after) hinside
    refine ⟨⟨?_, fun h => absurd hinside h⟩, fun _ => ⟨rfl, ?_, _, rfl, hstart⟩⟩
    · -- The line named starts too far on for any column.
      rintro ⟨n, line, hn, -, -, hoffset⟩
      rw [← Nat.add_right_cancel hn, hstart] at hoffset
      omega
    · -- What is shown ends at once, with the line feed.
      rcases List.head?_eq_some_iff.mp hlf with ⟨rest, hrest⟩
      rw [hshown, hrest, List.nil_append, lineText_cons_boundary rest (by decide)]
      rfl
  · -- The line the place is on starts outside pairs, so the lines before it are
    -- those that the pass has counted.
    refine ⟨⟨fun _ => hinside, fun _ => ?_⟩, fun h => absurd h hinside⟩
    have hpair := not_pair_of_not_insidePair hlead hinside
    rcases getElem?_splitLines opening (lead ++ (covered ++ after)) hopening hpair with
      ⟨line, hget, htext, hstart⟩
    rw [← List.append_assoc] at hget hstart
    refine ⟨_, line, rfl, hget, ?_, ?_⟩
    · rw [hshown, htext, lineText_append lead _ hlead]
    · rw [hstart, byteLength_append]

/-- Two lines, between which stands a pair. -/
def paired : List Char :=
  ['a', '\r', '\n', '\t', 'b']

/-- Behind a tab on the second line the number names the line. -/
theorem namesShownLine_after_pair :
    (⟨4, 1⟩ : Span).FitsIn paired ∧ ¬ InsidePair paired 4 ∧
      ∃ e, ofSpan? paired ⟨4, 1⟩ 0 = some e ∧ e.NamesShownLine paired 4 := by
  have hfits : (⟨4, 1⟩ : Span).FitsIn paired :=
    ⟨['a', '\r', '\n', '\t'], ['b'], [], rfl, by decide, by decide⟩
  have houtside : ¬ InsidePair paired 4 := by
    intro h
    have hpair := (insidePair_append_iff ['a', '\r', '\n', '\t'] ['b']).mp h
    exact absurd hpair (by decide)
  rcases namesShownLine_iff hfits with ⟨e, he, hiff, -⟩
  exact ⟨hfits, houtside, e, he, hiff.mpr houtside⟩

/-- Between the halves of the pair the number is two, but the second line
    starts a byte after the place. -/
theorem not_namesShownLine_inside_pair :
    (⟨2, 0⟩ : Span).FitsIn paired ∧
      ∃ e, ofSpan? paired ⟨2, 0⟩ 0 = some e ∧ ¬ e.NamesShownLine paired 2 := by
  refine ⟨⟨['a', '\r'], [], ['\n', '\t', 'b'], rfl, by decide, rfl⟩,
    { line := 2, column := 0, shown := ⟨[], 0, 0⟩ }, by decide, ?_⟩
  rintro ⟨n, line, hn, -, -, hoffset⟩
  -- The number is that of the second line, from one.
  have hone : n = 1 := by
    simp only [Nat.reduceEqDiff] at hn
    omega
  rw [hone] at hoffset
  exact absurd hoffset (by decide)

end Excerpt

end Diagnostics
