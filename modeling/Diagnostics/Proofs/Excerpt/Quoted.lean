import Diagnostics.Message
import Diagnostics.Proofs.Excerpt.Exact
import Diagnostics.Proofs.Text.Grammar

/-!
# Excerpts of Quoted Literals

A rule that is about a quoted literal knows only where it starts. The source
tells it where the literal ends, and the span from there to there goes on to a
message. So the answer must be the literal that the grammar sees, and it must be
a span that can be shown: an end inside a character would bring down whoever
resolves it.

Where there is no literal the answer is a point, and a point may lie inside a
character. Only an offset past the end has no answer at all.

## Theorems

* `Source.quotedAt?_eq_none_iff`: An answer is missing only past the end.
* `Source.exists_quotedAt?`: The answer is the literal, or a point.
* `Source.quotedAt?_quoted`: A text written as a literal is the answer.
* `Source.quotedAt?_quotes`: All of this, with what can be done with the answer.
-/

namespace Diagnostics

open Text

namespace Source

theorem quotedAt?_eq_none_iff (source : Source) (offset : Nat) :
    source.quotedAt? offset = none ↔ byteLength source.chars < offset := by
  simp only [quotedAt?, length_bytes, ite_eq_right_iff, reduceCtorEq, imp_false, Nat.not_le]

theorem quotedAt?_of_le {source : Source} {offset : Nat}
    (h : offset ≤ byteLength source.chars) :
    source.quotedAt? offset
      = some ⟨offset, (literalLength? ((bytes source.chars).drop offset)).getD 0⟩ := by
  rw [quotedAt?, length_bytes, if_pos h]

/-- Where a literal starts, it is the answer. -/
theorem quotedAt?_of_quotes {source : Source} {offset n : Nat}
    (h : Span.Quotes ⟨offset, n⟩ source.chars) : source.quotedAt? offset = some ⟨offset, n⟩ := by
  rcases quotes_iff.mp h with ⟨hle, hliteral⟩
  rw [length_bytes] at hle
  rw [quotedAt?_of_le hle, hliteral, Option.getD_some]

/-- The answer is the literal that starts at the offset, or a point if there is
    none. -/
theorem exists_quotedAt? {source : Source} {offset : Nat}
    (h : offset ≤ byteLength source.chars) :
    ∃ n, source.quotedAt? offset = some ⟨offset, n⟩ ∧
      (∀ m, 0 < m → (n = m ↔ Span.Quotes ⟨offset, m⟩ source.chars)) := by
  refine ⟨_, quotedAt?_of_le h, fun m hm => ?_⟩
  rw [quotes_iff, length_bytes]
  cases literalLength? ((bytes source.chars).drop offset) with
  | none =>
      -- A point is no literal, since each has a length.
      simp only [Option.getD_none, reduceCtorEq, and_false, iff_false]
      omega
  | some n => simp only [Option.getD_some, Option.some.injEq, h, true_and]

/-- A text written as a literal is the answer, at the length of what is before
    it. -/
theorem quotedAt?_quoted {source : Source} {quote : Char} (hquote : quote = '"' ∨ quote = '\'')
    {before text after : List Char}
    (h : source.chars = before ++ (quoted quote text ++ after)) :
    source.quotedAt? (byteLength before)
        = some ⟨byteLength before, byteLength (quoted quote text)⟩ ∧
      source.textOf? ⟨byteLength before, byteLength (quoted quote text)⟩
        = some (quoted quote text) := by
  constructor
  · refine quotedAt?_of_quotes ?_
    rw [h]
    exact Span.quotes_quoted hquote before text after
  · rw [textOf?, h]
    exact slice?_append before (quoted quote text) after

/-- The answer at an offset is exactly the literal of the grammar that starts
    there. It fits the text, so that its text and its excerpts can be had. -/
theorem quotedAt?_quotes (source : Source) (offset : Nat) :
    (source.quotedAt? offset = none ↔ byteLength source.chars < offset) ∧
    (offset ≤ byteLength source.chars → ∃ n, source.quotedAt? offset = some ⟨offset, n⟩ ∧
      (∀ m, 0 < m → (n = m ↔ Span.Quotes ⟨offset, m⟩ source.chars)) ∧
      ((∀ m, ¬ Span.Quotes ⟨offset, m⟩ source.chars) → n = 0) ∧
      (0 < n → Span.FitsIn ⟨offset, n⟩ source.chars ∧
        offset + n ≤ byteLength source.chars ∧
        (∃ covered, source.textOf? ⟨offset, n⟩ = some covered) ∧
        ∀ width, ∃ excerpt, Excerpt.ofSpan? source.chars ⟨offset, n⟩ width = some excerpt)) ∧
    (∀ m n, Span.Quotes ⟨offset, m⟩ source.chars → Span.Quotes ⟨offset, n⟩ source.chars →
      m = n) ∧
    ∀ quote before text after, quote = '"' ∨ quote = '\'' →
      source.chars = before ++ (quoted quote text ++ after) → offset = byteLength before →
      source.quotedAt? offset = some ⟨offset, byteLength (quoted quote text)⟩ ∧
        source.textOf? ⟨offset, byteLength (quoted quote text)⟩ = some (quoted quote text) := by
  refine ⟨quotedAt?_eq_none_iff source offset, ?_, fun m n => Span.Quotes.length_unique, ?_⟩
  · -- An offset in the text.
    intro hle
    rcases exists_quotedAt? hle with ⟨n, hanswer, hquotes⟩
    refine ⟨n, hanswer, hquotes, ?_, ?_⟩
    · intro hnone
      by_contra hne
      exact hnone n ((hquotes n (Nat.pos_of_ne_zero hne)).mp rfl)
    · intro hpos
      -- A literal is delimited by whole characters, so it can be cut out and shown.
      have hfits := ((hquotes n hpos).mp rfl).fitsIn
      exact ⟨hfits, hfits.stop_le, hfits.exists_slice?, Excerpt.exists_ofSpan? hfits⟩
  · -- A text that was written as a literal.
    rintro quote before text after hquote hchars rfl
    exact quotedAt?_quoted hquote hchars

/-- Two literals behind a letter of two bytes. A backslash in the first one is
    followed by such a letter, and the second one is an escaped quote. -/
def accents : Source :=
  { index := 0
    absolutePath := "/abs/file.js"
    displayPath := "file.js"
    contents := String.ofList ['é', '\'', '\\', 'é', '\'', '"', '\\', '"', '"'] }

/-- Both literals are found, and the first one can be shown although its backslash
    takes along half of a letter. -/
theorem quotedAt?_quotes_accents :
    accents.quotedAt? 2 = some ⟨2, 5⟩ ∧
    (∀ width, ∃ excerpt, Excerpt.ofSpan? accents.chars ⟨2, 5⟩ width = some excerpt) ∧
    accents.quotedAt? 7 = some ⟨7, 4⟩ ∧ accents.textOf? ⟨7, 4⟩ = some ['"', '\\', '"', '"'] := by
  have hchars : accents.chars = ['é', '\'', '\\', 'é', '\'', '"', '\\', '"', '"'] :=
    String.toList_ofList
  -- By the grammar, byte by byte: the backslash takes the first byte of the letter along.
  have hquotes : Span.Quotes ⟨2, 5⟩ accents.chars := by
    rw [hchars]
    exact ⟨[195, 169], [39, 92, 195, 169, 39], [34, 92, 34, 34], by decide,
      @IsLiteral.quoted singleQuote [92, 195, 169] (by decide)
        (.escaped (.plain (by decide) (by decide) .nil)), rfl⟩
  have hlength : 2 ≤ byteLength accents.chars := by
    rw [hchars]
    decide
  rcases (quotedAt?_quotes accents 2).2.1 hlength with ⟨n, hanswer, hiff, -, hshown⟩
  have hn : n = 5 := (hiff 5 (by decide)).mpr hquotes
  subst hn
  have hescaped := (quotedAt?_quotes accents 7).2.2.2 '"' ['é', '\'', '\\', 'é', '\''] ['"'] []
    (Or.inl rfl) hchars (by decide)
  exact ⟨hanswer, (hshown (by decide)).2.2.2, hescaped⟩

end Source

end Diagnostics
