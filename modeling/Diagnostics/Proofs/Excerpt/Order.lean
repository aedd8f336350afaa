import Diagnostics.Proofs.Excerpt.Exact
import Diagnostics.Proofs.Text.Order

/-!
# The Order of Excerpts

Whoever reads a line number and a column wants to find the place again, and
whoever sorts by them wants the order of the text. For the places of one text
both work, but for one pair of places each time that a carriage return and a
line feed stand together: the place between the two and the place after them
are reported alike.

A point is enough to speak of here, for the two numbers of an excerpt depend on
where its span begins and on nothing else.

## Main definitions

* `Excerpt.Precedes`: An earlier line, or an earlier column of the same line.
* `Excerpt.SamePlace`: The same line and column.

## Theorems

* `Excerpt.exists_ofSpan?_point`: The numbers of a point, by the text before it.
* `Excerpt.precedes_iff_of_lt`: Numbers of two places of one text.
-/

namespace Diagnostics

open Text

namespace Excerpt

/-- An excerpt names an earlier line than another, or an earlier column of the
    same line. -/
def Precedes (e f : Excerpt) : Prop :=
  e.line < f.line ∨ e.line = f.line ∧ e.column < f.column

/-- Two excerpts name the same line and column. -/
def SamePlace (e f : Excerpt) : Prop :=
  e.line = f.line ∧ e.column = f.column

/-- The numbers of a point are the position of the text before it. -/
theorem exists_ofSpan?_point (before rest : List Char) (width : Nat) :
    ∃ e, ofSpan? (before ++ rest) ⟨byteLength before, 0⟩ width = some e ∧
      e.line = (position before).lineCount + 1 ∧ e.column = (position before).column := by
  rcases exists_opening before with ⟨opening, lead, rfl, hopening, hlead⟩
  refine ⟨_, ofSpan?_append opening lead [] rest width hopening hlead, ?_⟩
  rw [position_append opening lead hopening hlead]
  exact ⟨rfl, rfl⟩

/-- Two places of a text, one behind the other, fall into three pieces of it. -/
theorem exists_between {cs : List Char} {s t : Nat} (hs : (⟨s, 0⟩ : Span).FitsIn cs)
    (ht : (⟨t, 0⟩ : Span).FitsIn cs) (hlt : s < t) :
    ∃ before between after, cs = before ++ (between ++ after) ∧ between ≠ [] ∧
      byteLength before = s ∧ byteLength (before ++ between) = t := by
  rcases hs with ⟨before, point, rest, rfl, rfl, hpoint⟩
  rcases ht with ⟨before', point', rest', htext, rfl, hpoint'⟩
  rw [byteLength_eq_zero_iff] at hpoint hpoint'
  subst hpoint hpoint'
  simp only [List.append_nil] at htext ⊢
  -- One of the two pieces in front begins with the other.
  rcases List.append_eq_append_iff.mp htext with ⟨between, rfl, rfl⟩ | ⟨extra, rfl, -⟩
  · refine ⟨before, between, rest', rfl, ?_, rfl, rfl⟩
    -- With nothing in between they would be one place.
    rintro rfl
    rw [List.append_nil] at hlt
    exact Nat.lt_irrefl _ hlt
  · -- The second place would not be behind the first.
    rw [byteLength_append] at hlt
    exact absurd hlt (Nat.not_lt.mpr (Nat.le_add_right _ _))

/-- What is read between the two places is a line feed alone exactly if they
    are one byte apart and the first is inside a pair. -/
theorem insidePair_and_iff (before between after : List Char) :
    InsidePair (before ++ (between ++ after)) (byteLength before) ∧
        byteLength (before ++ between) = byteLength before + 1 ↔
      before.getLast? = some '\r' ∧ between = ['\n'] := by
  rw [insidePair_append_iff, byteLength_append, Nat.add_left_cancel_iff]
  constructor
  · rintro ⟨⟨hreturn, hfeed⟩, hone⟩
    refine ⟨hreturn, ?_⟩
    -- What is between begins with the line feed, which is all of its one byte.
    cases between with
    | nil => exact absurd hone (by decide)
    | cons c between =>
        rw [List.cons_append, List.head?_cons, Option.some.injEq] at hfeed
        subst hfeed
        have hnil : byteLength between = 0 := Nat.add_left_cancel hone
        rw [byteLength_eq_zero_iff.mp hnil]
  · rintro ⟨hreturn, rfl⟩
    exact ⟨⟨hreturn, rfl⟩, rfl⟩

/-- Of two places of a text the one further on is reported at a later line and
    column, on terminals of any width, unless it comes right after a pair of
    carriage return and line feed and the other is inside that pair. Those two
    are reported alike, and no others are. -/
theorem precedes_iff_of_lt {cs : List Char} {s t : Nat} (hs : (⟨s, 0⟩ : Span).FitsIn cs)
    (ht : (⟨t, 0⟩ : Span).FitsIn cs) (hlt : s < t) (width width' : Nat) :
    ∃ e f, ofSpan? cs ⟨s, 0⟩ width = some e ∧ ofSpan? cs ⟨t, 0⟩ width' = some f ∧
      (e.Precedes f ↔ ¬ (InsidePair cs s ∧ t = s + 1)) ∧
      (e.SamePlace f ↔ InsidePair cs s ∧ t = s + 1) := by
  rcases exists_between hs ht hlt with ⟨before, between, after, rfl, hne, rfl, rfl⟩
  -- The two are reported at the positions of the pieces in front of them.
  rcases exists_ofSpan?_point before (between ++ after) width with ⟨e, he, heline, hecolumn⟩
  rcases exists_ofSpan?_point (before ++ between) after width' with ⟨f, hf, hfline, hfcolumn⟩
  rw [List.append_assoc] at hf
  refine ⟨e, f, he, hf, ?_⟩
  rw [insidePair_and_iff]
  unfold Precedes SamePlace
  by_cases hpair : before.getLast? = some '\r' ∧ between = ['\n']
  · -- The line feed alone leaves the position as it is.
    rcases hpair with ⟨hreturn, rfl⟩
    rcases List.getLast?_eq_some_iff.mp hreturn with ⟨a, rfl⟩
    rcases position_pair a with ⟨hline, hcolumn⟩
    rw [List.append_assoc, List.singleton_append] at hfline hfcolumn
    simp only [hreturn, true_and, not_true_eq_false, iff_false, iff_true]
    exact ⟨by omega, by omega⟩
  · -- Otherwise the count of lines has grown, or it has not and the column has.
    simp only [hpair, not_false_eq_true, iff_true, iff_false]
    rcases position_cases before hne with hcount | ⟨hcount, hcolumn⟩ | h
    · exact ⟨by omega, by omega⟩
    · exact ⟨by omega, by omega⟩
    · exact absurd h hpair

/-- A pair between two lines, the second of which begins with a wide
    character. -/
def wideAfterPair : List Char :=
  ['a', '\r', '\n', 'é', 'b']

/-- Inside the pair and after it the same place is reported, and behind the wide
    character a later one. -/
theorem precedes_iff_of_lt_around_pair :
    (⟨2, 0⟩ : Span).FitsIn wideAfterPair ∧ (⟨3, 0⟩ : Span).FitsIn wideAfterPair ∧
      (⟨5, 0⟩ : Span).FitsIn wideAfterPair ∧ InsidePair wideAfterPair 2 ∧
      (∃ e f, ofSpan? wideAfterPair ⟨2, 0⟩ 0 = some e ∧ ofSpan? wideAfterPair ⟨3, 0⟩ 3 = some f ∧
        e.SamePlace f) ∧
      ∃ e f, ofSpan? wideAfterPair ⟨2, 0⟩ 0 = some e ∧ ofSpan? wideAfterPair ⟨5, 0⟩ 1 = some f ∧
        e.Precedes f := by
  -- The three places: in the pair, right after it, and behind the wide character.
  have htwo : (⟨2, 0⟩ : Span).FitsIn wideAfterPair :=
    ⟨['a', '\r'], [], ['\n', 'é', 'b'], rfl, by decide, rfl⟩
  have hthree : (⟨3, 0⟩ : Span).FitsIn wideAfterPair :=
    ⟨['a', '\r', '\n'], [], ['é', 'b'], rfl, by decide, rfl⟩
  have hfive : (⟨5, 0⟩ : Span).FitsIn wideAfterPair :=
    ⟨['a', '\r', '\n', 'é'], [], ['b'], rfl, by decide, rfl⟩
  have hinside : InsidePair wideAfterPair 2 := ⟨['a'], ['é', 'b'], rfl, by decide⟩
  rcases precedes_iff_of_lt htwo hthree (by decide) 0 3 with ⟨e, f, he, hf, -, hsame⟩
  rcases precedes_iff_of_lt htwo hfive (by decide) 0 1 with ⟨e', f', he', hf', hprecedes, -⟩
  exact ⟨htwo, hthree, hfive, hinside, ⟨e, f, he, hf, hsame.mpr ⟨hinside, rfl⟩⟩,
    e', f', he', hf', hprecedes.mpr fun h => absurd h.2 (by decide)⟩

end Excerpt

end Diagnostics
