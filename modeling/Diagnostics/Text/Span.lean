import Diagnostics.Text.Offset

/-!
# Spans

A span is two numbers and may lie anywhere; whether it is a place in a given
text is a question about the two together. `Span.FitsIn` is the answer: the
text falls into three pieces, of which the second is what the span covers.

An offset can miss a text in two ways, by lying past its end or by lying inside
a character. A span fits if neither of its ends misses.

## Main definitions

* `Text.Misses`: An offset that is no place in a text.
* `Span`: A start and a length in bytes.
* `Span.stop`: The offset after a span.
* `Span.isPoint`: Whether a span covers nothing.
* `Span.FitsIn`: A span whose ends are places in a text.

## Theorems

* `Text.not_misses_iff`: An offset that does not miss cuts the text.
* `Span.FitsIn.exists_slice?`: A span that fits covers a text.
* `Span.FitsIn.stop_le`: A span that fits ends in the text.
* `Span.fitsIn_iff`: A span fits if its ends do not miss.
-/

namespace Diagnostics

namespace Text

/-- An offset past the end of a text, or inside a character of it. -/
def Misses (cs : List Char) (offset : Nat) : Prop :=
  byteLength cs < offset ∨
    ∃ before c after, cs = before ++ c :: after ∧ byteLength before < offset ∧
      offset < byteLength before + c.utf8Size

theorem misses_cons_iff {c : Char} {cs : List Char} {offset : Nat} (h : c.utf8Size ≤ offset) :
    Misses (c :: cs) offset ↔ Misses cs (offset - c.utf8Size) := by
  unfold Misses
  rw [byteLength_cons]
  refine or_congr (by omega) ⟨?_, ?_⟩
  · rintro ⟨before, d, after, htext, hbefore, hafter⟩
    cases before with
    | nil =>
      -- The offset lies past the first character, so it is inside another one.
      rw [List.nil_append, List.cons.injEq] at htext
      rw [byteLength_nil, ← htext.1] at hafter
      omega
    | cons e before =>
      rw [List.cons_append, List.cons.injEq] at htext
      rw [byteLength_cons, ← htext.1] at hbefore hafter
      exact ⟨before, d, after, htext.2, by omega, by omega⟩
  · rintro ⟨before, d, after, rfl, hbefore, hafter⟩
    refine ⟨c :: before, d, after, rfl, ?_, ?_⟩
    · rw [byteLength_cons]
      omega
    · rw [byteLength_cons]
      omega

/-- An offset that does not miss a text cuts it in two. -/
theorem not_misses_iff {cs : List Char} {offset : Nat} :
    ¬ Misses cs offset ↔ ∃ before after, cs = before ++ after ∧ byteLength before = offset := by
  constructor
  · intro h
    induction cs generalizing offset with
    | nil =>
      have hzero : ¬ 0 < offset := fun hpos => h (Or.inl hpos)
      exact ⟨[], [], rfl, (Nat.eq_zero_of_not_pos hzero).symm⟩
    | cons c cs ih =>
      rcases Nat.eq_zero_or_pos offset with rfl | hpos
      · exact ⟨[], c :: cs, rfl, rfl⟩
      · by_cases hc : c.utf8Size ≤ offset
        · rw [misses_cons_iff hc] at h
          rcases ih h with ⟨before, after, rfl, hlength⟩
          exact ⟨c :: before, after, rfl, by rw [byteLength_cons]; omega⟩
        · -- The offset lies inside the first character.
          refine absurd (Or.inr ⟨[], c, cs, rfl, hpos, ?_⟩) h
          rw [byteLength_nil]
          omega
  · rintro ⟨before, after, rfl, rfl⟩
    induction before with
    | nil =>
      rintro (hpast | ⟨_, _, _, -, hinside, -⟩)
      · exact absurd hpast (Nat.not_lt_zero _)
      · exact absurd hinside (Nat.not_lt_zero _)
    | cons c before ih =>
      rw [List.cons_append, byteLength_cons, misses_cons_iff (Nat.le_add_right _ _),
        Nat.add_sub_cancel_left]
      exact ih

end Text

/-- A start and a length in bytes. A span of length zero is a point. -/
structure Span where
  start : Nat
  length : Nat := 0
deriving DecidableEq, Repr

namespace Span

/-- The offset just after the last byte. -/
def stop (span : Span) : Nat :=
  span.start + span.length

/-- Whether a span is only a place, with nothing in it. -/
def isPoint (span : Span) : Bool :=
  span.length == 0

/-- A span whose two ends are places in a text. -/
def FitsIn (span : Span) (cs : List Char) : Prop :=
  ∃ before covered after, cs = before ++ covered ++ after ∧
    Text.byteLength before = span.start ∧ Text.byteLength covered = span.length

/-- What a span covers is found by its two numbers. -/
theorem FitsIn.exists_slice? {span : Span} {cs : List Char} (h : span.FitsIn cs) :
    ∃ covered, Text.slice? span.start span.length cs = some covered := by
  rcases h with ⟨before, covered, after, rfl, hstart, hlength⟩
  refine ⟨covered, ?_⟩
  rw [← hstart, ← hlength, List.append_assoc]
  exact Text.slice?_append before covered after

theorem FitsIn.stop_le {span : Span} {cs : List Char} (h : span.FitsIn cs) :
    span.stop ≤ Text.byteLength cs := by
  rcases h with ⟨before, covered, after, rfl, hstart, hlength⟩
  rw [stop, ← hstart, ← hlength, Text.byteLength_append, Text.byteLength_append]
  exact Nat.le_add_right _ _

/-- A span fits a text exactly if neither of its ends misses the text. -/
theorem fitsIn_iff {span : Span} {cs : List Char} :
    span.FitsIn cs ↔ ¬ Text.Misses cs span.start ∧ ¬ Text.Misses cs span.stop := by
  rw [Text.not_misses_iff, Text.not_misses_iff]
  constructor
  · rintro ⟨before, covered, after, rfl, hstart, hlength⟩
    refine ⟨⟨before, covered ++ after, List.append_assoc _ _ _, hstart⟩, _, after, rfl, ?_⟩
    rw [Text.byteLength_append, hstart, hlength, stop]
  · rintro ⟨⟨before, rest, rfl, hstart⟩, upto, after, htext, hstop⟩
    rw [stop, ← hstart] at hstop
    rcases List.append_eq_append_iff.mp htext with ⟨covered, rfl, rfl⟩ | ⟨extra, rfl, rfl⟩
    · -- What is covered is the text between the two ends.
      rw [Text.byteLength_append, Nat.add_left_cancel_iff] at hstop
      exact ⟨before, covered, after, (List.append_assoc _ _ _).symm, hstart, hstop⟩
    · -- The second end is not before the first, so the two are one.
      rw [Text.byteLength_append] at hstop
      refine ⟨upto ++ extra, [], rest, by rw [List.append_nil], hstart, ?_⟩
      rw [Text.byteLength_nil]
      omega

end Span

end Diagnostics
