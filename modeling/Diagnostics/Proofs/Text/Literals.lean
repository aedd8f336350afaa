import Diagnostics.Proofs.Text.Bytes
import Diagnostics.Text.Quoted

/-!
# Literals are Pieces of a Text

Literals are found among the bytes of a text, and then used as spans of the
text. This needs an argument, because most places among the bytes are none in
the text. A literal starts and ends with a quote, and a quote is a character of
its own; whatever stands in between begins and ends where the quotes do. So the
span cuts the text between characters, even if a backslash in the literal took
along half a character.

## Main definitions

* `IsLiteralIn`: A span that covers a literal among some bytes.

## Theorems

* `exists_of_closing?`: What a scan for the closing quote has passed over.
* `isLiteralIn_of_mem_literalsFrom`: What is found is a literal.
* `IsLiteralIn.fitsIn`: A literal is a piece of the text.
-/

namespace Diagnostics

namespace Text

/-- A scan for the closing quote stops right after it, and has passed over the
    body of a literal. -/
theorem exists_of_closing? {quote : UInt8} {rest : List UInt8} {n : Nat}
    (h : closing? quote rest = some n) :
    ∃ body after, rest = body ++ quote :: after ∧ body.length + 1 = n ∧ IsBody quote body := by
  -- Each step of the scan is an item of the body, and the last one is the quote.
  fun_induction closing? quote rest generalizing n with
  | case1 => exact absurd h.symm (Option.some_ne_none n)
  | case2 => exact ⟨[], [], rfl, Option.some.inj h, .nil⟩
  | case3 b hb => exact absurd h.symm (Option.some_ne_none n)
  | case4 escaped rest => exact ⟨[], escaped :: rest, rfl, Option.some.inj h, .nil⟩
  | case5 escaped rest hb ih =>
      rcases Option.map_eq_some_iff.mp h with ⟨m, hclosing, rfl⟩
      rcases ih hclosing with ⟨body, after, rfl, rfl, hbody⟩
      exact ⟨backslash :: escaped :: body, after, rfl, rfl, .escaped hbody⟩
  | case6 b escaped rest hquote hb ih =>
      rcases Option.map_eq_some_iff.mp h with ⟨m, hclosing, rfl⟩
      rcases ih hclosing with ⟨body, after, hrest, rfl, hbody⟩
      exact ⟨b :: body, after, by rw [hrest, List.cons_append], rfl, .plain hquote hb hbody⟩

/-- A span that covers a literal with the given quote, among bytes of which the
    first one is at `offset`. -/
def IsLiteralIn (quote : UInt8) (offset : Nat) (bs : List UInt8) (span : Span) : Prop :=
  ∃ front body back, bs = front ++ quote :: (body ++ quote :: back) ∧ IsBody quote body ∧
    span = ⟨offset + front.length, body.length + 2⟩

theorem IsLiteralIn.cons {quote : UInt8} {offset : Nat} {bs : List UInt8} {span : Span}
    (h : IsLiteralIn quote (offset + 1) bs span) (b : UInt8) :
    IsLiteralIn quote offset (b :: bs) span := by
  rcases h with ⟨front, body, back, rfl, hbody, rfl⟩
  refine ⟨b :: front, body, back, rfl, hbody, ?_⟩
  rw [List.length_cons, Nat.add_assoc, Nat.add_comm 1]

/-- What is found is a literal. -/
theorem isLiteralIn_of_mem_literalsFrom {quote : UInt8} {taken offset : Nat} {bs : List UInt8}
    {span : Span} (h : span ∈ literalsFrom quote taken offset bs) :
    IsLiteralIn quote offset bs span := by
  fun_induction literalsFrom quote taken offset bs with
  | case1 => exact absurd h List.not_mem_nil
  | case2 taken offset b rest ih => exact (ih h).cons b
  | case3 offset rest n hclosing ih =>
      -- Here a literal starts, and the span is that literal or a later one.
      rcases List.mem_cons.mp h with rfl | hlater
      · rcases exists_of_closing? hclosing with ⟨body, back, rfl, rfl, hbody⟩
        exact ⟨[], body, back, rfl, hbody, rfl⟩
      · exact (ih hlater).cons quote
  | case4 offset rest hclosing ih => exact (ih h).cons quote
  | case5 offset b rest hb ih => exact (ih h).cons b

/-- A literal with an ASCII quote, found among the bytes of a text, is a piece of
    that text. -/
theorem IsLiteralIn.fitsIn {quote : UInt8} (hquote : quote.toNat < 128) {cs : List Char}
    {span : Span} (h : IsLiteralIn quote 0 (bytes cs) span) : span.FitsIn cs := by
  rcases h with ⟨front, body, back, hbytes, -, rfl⟩
  -- Each of the two quotes is a character.
  rcases exists_of_bytes_eq hquote hbytes with ⟨before, opening, rest, rfl, hfront, hopening, hrest⟩
  rcases exists_of_bytes_eq hquote hrest with ⟨covered, closing, after, rfl, hbody, hclosing, -⟩
  refine ⟨before, opening :: (covered ++ [closing]), after, ?_, ?_, ?_⟩
  · simp only [List.append_assoc, List.cons_append, List.nil_append]
  · rw [← length_bytes, hfront, Nat.zero_add]
  · rw [← length_bytes, bytes_cons, bytes_append, bytes_cons, hopening, hbody, hclosing]
    simp only [bytes, List.flatMap_nil, List.append_nil, List.cons_append, List.nil_append,
      List.length_cons, List.length_append, List.length_nil]

theorem fitsIn_of_mem_literals {cs : List Char} {span : Span}
    (h : span ∈ literals doubleQuote (bytes cs)) : span.FitsIn cs :=
  (isLiteralIn_of_mem_literalsFrom h).fitsIn (by decide)

end Text

end Diagnostics
