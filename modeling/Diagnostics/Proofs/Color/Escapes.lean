import Diagnostics.Display

/-!
# Taking the Escapes out Again

A text that holds no escape character is passed over by a terminal, whatever
stands behind it, and each style in use is one whole order: it begins with the
escape, ends with its own letter, and says nothing about what follows. Styled
output is texts and styles in turn. Taking the orders out of it leaves the
texts, and those are what is written without colour.

The texts have to be free of escape characters for this. One that is not could
begin an order of its own, or complete one.

## Main definitions

* `Styled.IsClean`: No text in it has an escape character.

## Theorems

* `stripFrom_append`: Clean text is left as it is.
* `stripFrom_code`: A style is taken out as a whole.
* `Styled.stripEscapes_chars`: What is left is the output without colour.
* `Styled.not_mem_chars`: What is in no text and no style is not written.
* `Styled.escapeChar_not_mem`: What is left is clean.
-/

namespace Diagnostics

/-- Clean text is left as it is, whatever stands behind it. -/
theorem stripFrom_append {cs : List Char} (h : escapeChar ∉ cs) (rest : List Char) :
    stripFrom 0 (cs ++ rest) = cs ++ stripFrom 0 rest := by
  induction cs with
  | nil => rfl
  | cons c cs ih =>
      rw [List.mem_cons, not_or] at h
      have hc : ¬ c = escapeChar := fun hc => h.1 hc.symm
      rw [List.cons_append, stripFrom, if_neg hc]
      simp only [ih h.2, List.cons_append]

theorem stripEscapes_of_not_mem {cs : List Char} (h : escapeChar ∉ cs) : stripEscapes cs = cs := by
  have hstrip := stripFrom_append h []
  rwa [List.append_nil, stripFrom, List.append_nil] at hstrip

/-- A style is taken out as a whole, whatever stands behind it. -/
theorem stripFrom_code (escape : Style) (rest : List Char) :
    stripFrom 0 (escape.code.toList ++ rest) = stripFrom 0 rest := by
  cases escape <;> rfl

namespace Styled

/-- No text of a styled text has an escape character. -/
def IsClean (styled : Styled) : Prop :=
  ∀ cs, Piece.text cs ∈ styled → escapeChar ∉ cs

theorem chars_cons (colored : Bool) (piece : Piece) (styled : Styled) :
    chars colored (piece :: styled) = piece.chars colored ++ chars colored styled :=
  List.flatMap_cons

/-- Taking the orders out of coloured output leaves the output without colour. -/
theorem stripEscapes_chars {styled : Styled} (h : styled.IsClean) :
    stripEscapes (styled.chars true) = styled.chars false := by
  unfold stripEscapes
  induction styled with
  | nil => rfl
  | cons piece styled ih =>
      have hrest : IsClean styled := fun cs hmem => h cs (List.mem_cons_of_mem _ hmem)
      rw [chars_cons, chars_cons]
      cases piece with
      | text cs =>
          have hclean : escapeChar ∉ cs := h cs List.mem_cons_self
          -- A clean text has no order in it, and the same is written for it either way.
          rw [Piece.chars, Piece.chars, stripFrom_append hclean, ih hrest]
      | style escape =>
          -- A style is one order and nothing else.
          rw [Piece.chars, Piece.chars, if_pos rfl, if_neg Bool.false_ne_true, stripFrom_code,
            ih hrest, List.nil_append]

/-- What is in no text, and in no style that is written, is not in what is written. -/
theorem not_mem_chars {c : Char} {styled : Styled} {colored : Bool}
    (htext : ∀ cs, Piece.text cs ∈ styled → c ∉ cs)
    (hstyle : colored = true → ∀ escape : Style, c ∉ escape.code.toList) :
    c ∉ styled.chars colored := by
  intro hmem
  rcases List.mem_flatMap.mp hmem with ⟨piece, hpiece, hmem⟩
  cases piece with
  | text cs => exact htext cs hpiece hmem
  | style escape =>
      rw [Piece.chars, List.mem_ite_nil_right] at hmem
      exact hstyle hmem.1 escape hmem.2

/-- Without colour only texts are written. -/
theorem escapeChar_not_mem {styled : Styled} (h : styled.IsClean) :
    escapeChar ∉ styled.chars false :=
  not_mem_chars h fun hcolored => absurd hcolored Bool.false_ne_true

end Styled

end Diagnostics
