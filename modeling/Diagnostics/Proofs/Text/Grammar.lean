import Diagnostics.Proofs.Text.Literals

/-!
# The Scan and the Grammar of Literals

A scan for the end of a literal stops as soon as it can, and the grammar says
only what stands between two quotes. They agree because a body gives a scan no
choice: its quotes and backslashes come behind backslashes, so the scan takes
along what the grammar pairs and cannot stop early, and at the quote after the
body it has to stop. So the scan finds a literal wherever there is one, and a
literal is never the start of a longer one.

Escaping is the way to put any text between two quotes. It works on characters,
while the grammar is about bytes, and again only ASCII makes the difference: an
escaped character takes one byte, and any other is made of plain bytes.

## Main definitions

* `Span.Quotes`: A span that covers a literal of a text.
* `escape`: A text with a backslash before each quote and each backslash.
* `quoted`: A text written as a literal.

## Theorems

* `closing?_body_append`: The scan goes through a body and on behind it.
* `closing?_of_isBody`: The scan goes to the end of a body.
* `literalLength?_eq_some_iff`: The scan finds what the grammar says.
* `quotes_iff`: Literals from some byte on, by the scan from there.
* `Span.Quotes.length_unique`: From one byte on there is one literal at most.
* `Span.Quotes.fitsIn`: A literal starts and ends between characters.
* `isBody_escape`: An escaped text is the body of a literal.
* `Span.quotes_quoted`: A text written as a literal is one, wherever it stands.
-/

namespace Diagnostics

open Text

/-- A span that covers a literal among the bytes of a text. -/
def Span.Quotes (span : Span) (cs : List Char) : Prop :=
  ∃ front literal back, bytes cs = front ++ (literal ++ back) ∧ IsLiteral literal ∧
    span = ⟨front.length, literal.length⟩

namespace Text

theorem isQuote_iff {b : UInt8} : isQuote b = true ↔ b = doubleQuote ∨ b = singleQuote := by
  rw [isQuote, Bool.or_eq_true, beq_iff_eq, beq_iff_eq]

theorem toNat_lt_of_isQuote {b : UInt8} (h : isQuote b = true) : b.toNat < 128 := by
  rcases isQuote_iff.mp h with rfl | rfl <;> decide

theorem ne_backslash_of_isQuote {b : UInt8} (h : isQuote b = true) : b ≠ backslash := by
  rcases isQuote_iff.mp h with rfl | rfl <;> decide

section Scan

variable {quote : UInt8}

theorem closing?_quote (quote : UInt8) (rest : List UInt8) :
    closing? quote (quote :: rest) = some 1 := by
  cases rest with
  | nil => rw [closing?, if_pos rfl]
  | cons b rest => rw [closing?, if_pos rfl]

theorem closing?_plain {b : UInt8} (hq : b ≠ quote) (hb : b ≠ backslash) (rest : List UInt8) :
    closing? quote (b :: rest) = (closing? quote rest).map (· + 1) := by
  cases rest with
  | nil => rw [closing?, closing?, if_neg hq, Option.map_none]
  | cons c rest => rw [closing?, if_neg hq, if_neg hb]

theorem closing?_escaped (hquote : quote ≠ backslash) (b : UInt8) (rest : List UInt8) :
    closing? quote (backslash :: b :: rest) = (closing? quote rest).map (· + 2) := by
  rw [closing?, if_neg hquote.symm, if_pos rfl]

/-- The scan goes through a body and on behind it, by induction on the body: an
    item of it is what the scan takes in one step. -/
theorem closing?_body_append (hquote : quote ≠ backslash) {body : List UInt8}
    (h : IsBody quote body) (back : List UInt8) :
    closing? quote (body ++ back) = (closing? quote back).map (· + body.length) := by
  induction h with
  | nil => simp only [List.nil_append, List.length_nil, Nat.add_zero, Option.map_id']
  | plain hq hb _ ih =>
      rw [List.cons_append, closing?_plain hq hb, ih, Option.map_map]
      rfl
  | escaped _ ih =>
      rw [List.cons_append, List.cons_append, closing?_escaped hquote, ih, Option.map_map]
      rfl

/-- The scan goes to the end of a body and stops there. -/
theorem closing?_of_isBody (hquote : quote ≠ backslash) {body : List UInt8}
    (h : IsBody quote body) (back : List UInt8) :
    closing? quote (body ++ quote :: back) = some (body.length + 1) := by
  rw [closing?_body_append hquote h, closing?_quote, Option.map_some, Nat.add_comm]

/-- The scan finds a literal where the grammar says that there is one. -/
theorem literalLength?_eq_some_iff {bs : List UInt8} {n : Nat} :
    literalLength? bs = some n ↔
      ∃ literal back, bs = literal ++ back ∧ IsLiteral literal ∧ literal.length = n := by
  constructor
  · intro h
    cases bs with
    | nil => exact absurd h.symm (Option.some_ne_none n)
    | cons quote rest =>
        -- The scan counts from behind the first quote to the next unescaped one.
        rw [literalLength?, Option.ite_none_right_eq_some] at h
        rcases h with ⟨hquote, hmap⟩
        rcases Option.map_eq_some_iff.mp hmap with ⟨m, hclosing, rfl⟩
        rcases exists_of_closing? hclosing with ⟨body, back, rfl, rfl, hbody⟩
        refine ⟨quote :: (body ++ [quote]), back, ?_, .quoted hquote hbody, ?_⟩
        · rw [List.cons_append, List.append_assoc, List.singleton_append]
        · rw [List.length_cons, List.length_append, List.length_singleton]
  · rintro ⟨literal, back, rfl, hliteral, rfl⟩
    -- Between its two quotes a literal has a body, and the scan goes over it.
    cases hliteral with
    | @quoted quote body hquote hbody =>
        rw [List.cons_append, List.append_assoc, List.singleton_append, literalLength?,
          if_pos hquote, closing?_of_isBody (ne_backslash_of_isQuote hquote) hbody,
          Option.map_some, List.length_cons, List.length_append, List.length_singleton]

end Scan

section Places

variable {cs : List Char} {offset n : Nat}

/-- The literals from some byte on are found by the scan from there. -/
theorem quotes_iff : Span.Quotes ⟨offset, n⟩ cs ↔
    offset ≤ (bytes cs).length ∧ literalLength? ((bytes cs).drop offset) = some n := by
  rw [literalLength?_eq_some_iff]
  constructor
  · rintro ⟨front, literal, back, hbytes, hliteral, hspan⟩
    rw [Span.mk.injEq] at hspan
    rcases hspan with ⟨rfl, rfl⟩
    refine ⟨?_, literal, back, ?_, hliteral, rfl⟩
    · rw [hbytes, List.length_append]
      exact Nat.le_add_right _ _
    · rw [hbytes, List.drop_left]
  · rintro ⟨hle, literal, back, hdrop, hliteral, rfl⟩
    refine ⟨(bytes cs).take offset, literal, back, ?_, hliteral, ?_⟩
    · rw [← hdrop, List.take_append_drop]
    · rw [List.length_take, Nat.min_eq_left hle]

end Places

end Text

namespace Span.Quotes

variable {span : Span} {cs : List Char}

/-- From one byte on there is one literal at most. -/
theorem length_unique {offset m n : Nat} (hm : Span.Quotes ⟨offset, m⟩ cs)
    (hn : Span.Quotes ⟨offset, n⟩ cs) : m = n :=
  Option.some.inj ((quotes_iff.mp hm).2.symm.trans (quotes_iff.mp hn).2)

/-- A literal starts and ends between characters, even if a backslash in it takes
    along the first byte of a character only. -/
theorem fitsIn (h : span.Quotes cs) : span.FitsIn cs := by
  rcases h with ⟨front, literal, back, hbytes, hliteral, rfl⟩
  cases hliteral with
  | @quoted quote body hquote hbody =>
      refine IsLiteralIn.fitsIn (toNat_lt_of_isQuote hquote) ⟨front, body, back, ?_, hbody, ?_⟩
      · rw [hbytes, List.cons_append, List.append_assoc, List.singleton_append]
      · rw [Nat.zero_add, List.length_cons, List.length_append, List.length_singleton]

end Span.Quotes

namespace Text

section Escape

/-- A text with a backslash before each quote and each backslash. -/
def escape (quote : Char) (cs : List Char) : List Char :=
  cs.flatMap fun c => if c = quote ∨ c = '\\' then ['\\', c] else [c]

/-- A text written as a literal. -/
def quoted (quote : Char) (cs : List Char) : List Char :=
  quote :: (escape quote cs ++ [quote])

theorem IsBody.append {quote : UInt8} {a b : List UInt8} (ha : IsBody quote a)
    (hb : IsBody quote b) : IsBody quote (a ++ b) := by
  induction ha with
  | nil => exact hb
  | plain hq hne _ ih => exact .plain hq hne ih
  | escaped _ ih => exact .escaped ih

/-- Bytes that are all large are plain. -/
theorem isBody_of_le {quote : UInt8} (hquote : quote.toNat < 128) {bs : List UInt8}
    (h : ∀ b ∈ bs, 128 ≤ b.toNat) : IsBody quote bs := by
  induction bs with
  | nil => exact .nil
  | cons b bs ih =>
      have hb := h b List.mem_cons_self
      -- Both quotes and the backslash are small.
      refine .plain ?_ ?_ (ih fun b' hmem => h b' (List.mem_cons_of_mem b hmem))
      · rintro rfl
        omega
      · rintro rfl
        exact absurd hb (by decide)

variable {quote : Char}

/-- What escaping makes of one character. -/
theorem isBody_bytes_escape_singleton (hquote : quote.toNat < 128) (c : Char) :
    IsBody (UInt8.ofNat quote.toNat)
      (bytes (if c = quote ∨ c = '\\' then ['\\', c] else [c])) := by
  have hbackslash : UInt8.ofNat '\\'.toNat = backslash := rfl
  by_cases h : c = quote ∨ c = '\\'
  · -- The character is ASCII, so the backslash takes along all of it.
    have hc : c.toNat < 128 := by
      rcases h with rfl | rfl
      · exact hquote
      · decide
    rw [if_pos h, bytes_cons, bytes_singleton, utf8EncodeChar_of_lt hc,
      utf8EncodeChar_of_lt (c := '\\') (by decide), hbackslash]
    exact .escaped .nil
  · rw [if_neg h, bytes_singleton]
    rw [not_or] at h
    -- Any other character is a plain byte, or bytes too large for a quote or a
    -- backslash.
    rcases utf8EncodeChar_cases c with ⟨hc, henc⟩ | ⟨-, hlarge⟩
    · rw [henc]
      refine .plain ?_ ?_ .nil
      · rw [Ne, ofNat_toNat_inj hquote hc]
        exact h.1
      · rw [← hbackslash, Ne, ofNat_toNat_inj (by decide) hc]
        exact h.2
    · refine isBody_of_le ?_ hlarge
      rw [UInt8.toNat_ofNat', Nat.mod_eq_of_lt (by omega)]
      exact hquote

/-- An escaped text is the body of a literal. -/
theorem isBody_escape (hquote : quote.toNat < 128) (cs : List Char) :
    IsBody (UInt8.ofNat quote.toNat) (bytes (escape quote cs)) := by
  induction cs with
  | nil => exact .nil
  | cons c cs ih =>
      rw [escape, List.flatMap_cons, bytes_append]
      exact (isBody_bytes_escape_singleton hquote c).append ih

end Escape

end Text

/-- A text written as a literal is one, wherever it stands. -/
theorem Span.quotes_quoted {quote : Char} (hquote : quote = '"' ∨ quote = '\'')
    (before text after : List Char) :
    Span.Quotes ⟨byteLength before, byteLength (quoted quote text)⟩
      (before ++ (quoted quote text ++ after)) := by
  refine ⟨bytes before, bytes (quoted quote text), bytes after, ?_, ?_, ?_⟩
  · rw [bytes_append, bytes_append]
  · have hlt : quote.toNat < 128 := by rcases hquote with rfl | rfl <;> decide
    have hisQuote : isQuote (UInt8.ofNat quote.toNat) = true := by
      rcases hquote with rfl | rfl <;> decide
    rw [quoted, bytes_cons, bytes_append, bytes_singleton, utf8EncodeChar_of_lt hlt]
    exact .quoted hisQuote (isBody_escape hlt text)
  · rw [length_bytes, length_bytes]

end Diagnostics
