import Diagnostics.Proofs.Excerpt.Quoted
import Diagnostics.Proofs.Report.Run

/-!
# The Literals that the Report Looks at

The report goes through a file byte by byte and asks at each double quote
whether a literal starts there. One that does is passed over as a whole, and
one that is not closed by its first byte only. So what the report sees as a
literal depends on what it has seen before, and a quote may open a literal, or
close one, or stand inside one.

`Source.Tokens` says which literals these are without going through the file:
the first one at or after a place, then the first one at or after the end of
that, until there is none. It speaks only of what the source answers at an
offset, and that answer depends on nothing in front of the offset. This is why
a backslash, half a literal or a wide character earlier in the file cannot
hide a literal.

Two scans are held against it. `Report.scan?` is the loop with its index, which
asks the source at each quote and looks for a reminder at once. `literals` is
the pass over the bytes that counts a literal down. Neither knows of the other;
they agree because there is one sequence of tokens at most.

## Main definitions

* `Source.IsToken`: A literal in double quotes, as the source answers for it.
* `Source.Tokens`: The leftmost tokens from a place on, none inside another.
* `Source.IsTokenized`: What is to be said of all tokens of a file.
* `Report.scan?`: The loop over the file.

## Theorems

* `Source.Tokens.unique`: There is one sequence of tokens at most.
* `Source.Tokens.pairwise`: Tokens come one after the other.
* `Source.Tokens.covers`: A token starts in one that was taken.
* `Source.tokens_literalsFrom`: The pass finds the tokens.
* `Report.scan?_of_tokens`: The loop ends, and has found them too.
* `Report.stages_tokens`: What the report stages.
-/

namespace Diagnostics

open Text

namespace Source

/-- A double quote starts a literal there, and the span is the answer to where it
    ends. -/
structure IsToken (source : Source) (span : Span) : Prop where
  quote : (bytes source.chars)[span.start]? = some doubleQuote
  found : source.quotedAt? span.start = some span
  closed : span.isPoint = false

/-- The leftmost tokens from a place on, each at or after the end of the one before
    it. -/
inductive Tokens (source : Source) : Nat → List Span → Prop
  | done {place : Nat} (h : ∀ span, source.IsToken span → span.start < place) :
      Tokens source place []
  | next {place : Nat} {span : Span} {rest : List Span} (hle : place ≤ span.start)
      (htoken : source.IsToken span)
      (hfirst : ∀ other, source.IsToken other → place ≤ other.start → span.start ≤ other.start)
      (h : Tokens source span.stop rest) : Tokens source place (span :: rest)

variable {source : Source} {place : Nat} {spans : List Span} {span other : Span}

namespace IsToken

/-- The source has one answer at an offset. -/
theorem eq_of_start (h : source.IsToken span) (h' : source.IsToken other)
    (hstart : span.start = other.start) : span = other := by
  have hfound := h.found
  rw [hstart, h'.found, Option.some.injEq] at hfound
  exact hfound.symm

theorem length_pos (h : source.IsToken span) : 0 < span.length :=
  Nat.pos_of_ne_zero (beq_eq_false_iff_ne.mp h.closed)

theorem start_lt_stop (h : source.IsToken span) : span.start < span.stop := by
  have hpos := h.length_pos
  rw [Span.stop]
  omega

theorem start_lt_length (h : source.IsToken span) :
    span.start < (bytes source.chars).length :=
  (List.getElem?_eq_some_iff.mp h.quote).1

/-- A token is a literal of the grammar. -/
theorem quotes (h : source.IsToken span) : span.Quotes source.chars := by
  have hlt := h.start_lt_length
  rw [length_bytes] at hlt
  rcases exists_quotedAt? (Nat.le_of_lt hlt) with ⟨n, hanswer, hquotes⟩
  rw [h.found, Option.some.injEq] at hanswer
  have hlength : n = span.length := by rw [hanswer]
  exact (hquotes span.length h.length_pos).mp hlength

end IsToken

/-- Whether a token starts at an offset is decided by the bytes from there on. -/
theorem isToken_iff_of_drop {offset n : Nat} {b : UInt8} {rest : List UInt8}
    (hdrop : (bytes source.chars).drop offset = b :: rest) :
    source.IsToken ⟨offset, n⟩ ↔
      b = doubleQuote ∧ (closing? doubleQuote rest).map (· + 1) = some n := by
  -- The byte at the offset is the first of those.
  have hget : (bytes source.chars)[offset]? = some b := by
    have hhead : ((bytes source.chars).drop offset)[0]? = (bytes source.chars)[offset]? :=
      List.getElem?_drop
    rw [← hhead, hdrop, List.getElem?_cons_zero]
  have hisQuote : isQuote doubleQuote = true := by decide
  -- Both directions go through the grammar, which is what the source answers by.
  constructor
  · intro h
    have hquote := h.quote
    rw [hget, Option.some.injEq] at hquote
    subst hquote
    have hliteral := (quotes_iff.mp h.quotes).2
    rw [hdrop, literalLength?, if_pos hisQuote] at hliteral
    exact ⟨rfl, hliteral⟩
  · rintro ⟨rfl, hclosing⟩
    have hle : offset ≤ (bytes source.chars).length :=
      Nat.le_of_lt (List.getElem?_eq_some_iff.mp hget).1
    have hquotes : Span.Quotes ⟨offset, n⟩ source.chars := by
      rw [quotes_iff, hdrop, literalLength?, if_pos hisQuote]
      exact ⟨hle, hclosing⟩
    rcases Option.map_eq_some_iff.mp hclosing with ⟨m, -, rfl⟩
    exact ⟨hget, quotedAt?_of_quotes hquotes, rfl⟩

namespace Tokens

/-- Where no token starts, the next one is looked for a byte further on. -/
theorem succ_iff (hnone : ∀ span, source.IsToken span → span.start ≠ place) :
    source.Tokens (place + 1) spans ↔ source.Tokens place spans := by
  constructor
  · intro h
    -- Either way, what starts at the place or later does not start at the place.
    cases h with
    | done h =>
        refine .done fun span htoken => ?_
        have hlt := h span htoken
        have hne := hnone span htoken
        omega
    | next hle htoken hfirst h =>
        refine .next (by omega) htoken (fun other hother hplace => ?_) h
        have hne := hnone other hother
        exact hfirst other hother (by omega)
  · intro h
    cases h with
    | done h => exact .done fun span htoken => Nat.lt_succ_of_lt (h span htoken)
    | next hle htoken hfirst h =>
        have hne := hnone _ htoken
        exact .next (by omega) htoken (fun other hother hplace => hfirst other hother (by omega)) h

/-- Where a token starts, it is the next one. -/
theorem exists_of_isToken (h : source.Tokens span.start spans) (htoken : source.IsToken span) :
    ∃ rest, spans = span :: rest ∧ source.Tokens span.stop rest := by
  cases h with
  | done h => exact absurd (h span htoken) (Nat.lt_irrefl _)
  | next hle htoken' hfirst h =>
      -- The next one starts no later than this one and no earlier than here.
      have heq := htoken'.eq_of_start htoken
        (Nat.le_antisymm (hfirst span htoken (Nat.le_refl _)) hle)
      subst heq
      exact ⟨_, rfl, h⟩

/-- Each token is the only one that can come next, so there is one sequence of
    them at most. -/
theorem unique {spans' : List Span} (h : source.Tokens place spans)
    (h' : source.Tokens place spans') : spans' = spans := by
  -- On one sequence. The other ends where it ends, and else takes the same token.
  induction h generalizing spans' with
  | done h =>
      cases h' with
      | done _ => rfl
      | next hle htoken _ _ =>
          have hlt := h _ htoken
          omega
  | next hle htoken hfirst _ ih =>
      cases h' with
      | done h' =>
          have hlt := h' _ htoken
          omega
      | next hle' htoken' hfirst' h' =>
          -- Each of the two first tokens starts no later than the other.
          have hstart := Nat.le_antisymm (hfirst' _ htoken hle) (hfirst _ htoken' hle')
          have heq := htoken'.eq_of_start htoken hstart
          subst heq
          rw [ih h']

theorem isToken_of_mem (h : source.Tokens place spans) (hmem : span ∈ spans) :
    source.IsToken span ∧ place ≤ span.start := by
  induction h with
  | done _ => exact absurd hmem List.not_mem_nil
  | next hle htoken _ _ ih =>
      rcases List.mem_cons.mp hmem with rfl | hmem
      · exact ⟨htoken, hle⟩
      · have hlt := htoken.start_lt_stop
        rcases ih hmem with ⟨hlater, hstop⟩
        exact ⟨hlater, by omega⟩

/-- Tokens come one after the other, and have no byte in common. -/
theorem pairwise (h : source.Tokens place spans) :
    spans.Pairwise fun a b => a.stop ≤ b.start := by
  induction h with
  | done _ => exact List.Pairwise.nil
  | next _ _ _ h ih =>
      exact List.pairwise_cons.mpr ⟨fun _ hmem => (h.isToken_of_mem hmem).2, ih⟩

theorem stop_le_start (h : source.Tokens place spans) (hspan : span ∈ spans)
    (hother : other ∈ spans) (hlt : span.start < other.start) : span.stop ≤ other.start := by
  induction h with
  | done _ => exact absurd hspan List.not_mem_nil
  | next _ htoken _ h ih =>
      rcases List.mem_cons.mp hother with heq | hlater
      · -- The other one is the first, and nothing starts before it.
        have hstop := htoken.start_lt_stop
        subst heq
        rcases List.mem_cons.mp hspan with rfl | hlater
        · exact absurd hlt (Nat.lt_irrefl _)
        · have hle := (h.isToken_of_mem hlater).2
          omega
      · -- It is a later one, and all of these start behind the first.
        rcases List.mem_cons.mp hspan with rfl | hlater'
        · exact (h.isToken_of_mem hlater).2
        · exact ih hlater' hlater

/-- Any token from the place on starts in one of those that were taken. -/
theorem covers (h : source.Tokens place spans) (htoken : source.IsToken span)
    (hle : place ≤ span.start) :
    ∃ taken ∈ spans, taken.start ≤ span.start ∧ span.start < taken.stop := by
  induction h with
  | done h =>
      have hlt := h span htoken
      omega
  | @next _ taken _ _ _ hfirst _ ih =>
      -- It starts inside of the first token, or behind it and then in a later one.
      by_cases hstop : span.start < taken.stop
      · exact ⟨taken, List.mem_cons_self, hfirst span htoken hle, hstop⟩
      · rcases ih (Nat.le_of_not_lt hstop) with ⟨later, hmem, hlater⟩
        exact ⟨later, List.mem_cons_of_mem _ hmem, hlater⟩

end Tokens

/-- The pass over the bytes finds the tokens, from the end of the literal that it is
    counting down. -/
theorem tokens_literalsFrom {taken offset : Nat} {bs : List UInt8}
    (hdrop : (bytes source.chars).drop offset = bs) :
    source.Tokens (offset + taken) (literalsFrom doubleQuote taken offset bs) := by
  have hnext {b : UInt8} {rest : List UInt8} {offset : Nat}
      (hdrop : (bytes source.chars).drop offset = b :: rest) :
      (bytes source.chars).drop (offset + 1) = rest := by
    rw [← List.tail_drop, hdrop, List.tail_cons]
  fun_induction literalsFrom doubleQuote taken offset bs with
  | case1 taken offset =>
      -- Behind the last byte there is no quote.
      refine .done fun span htoken => ?_
      have hlt := htoken.start_lt_length
      have hend := List.drop_eq_nil_iff.mp hdrop
      omega
  | case2 taken offset b rest ih =>
      -- Inside a literal that was found before one byte less of it is left.
      have h := ih (hnext hdrop)
      rwa [Nat.add_right_comm] at h
  | case3 offset rest n hclosing ih =>
      -- A literal starts here, and it is the next token.
      have h := ih (hnext hdrop)
      have htoken : source.IsToken ⟨offset, n + 1⟩ := by
        rw [isToken_iff_of_drop hdrop, hclosing]
        exact ⟨rfl, rfl⟩
      rw [Nat.add_right_comm, Nat.add_assoc] at h
      exact .next (Nat.le_refl _) htoken (fun _ _ hle => hle) h
  | case4 offset rest hclosing ih =>
      -- A quote that nothing closes starts none.
      refine (Tokens.succ_iff ?_).mp (ih (hnext hdrop))
      rintro ⟨start, n⟩ htoken rfl
      rw [isToken_iff_of_drop hdrop, hclosing] at htoken
      exact absurd htoken.2.symm (Option.some_ne_none n)
  | case5 offset b rest hb ih =>
      -- Nor does any other byte.
      refine (Tokens.succ_iff ?_).mp (ih (hnext hdrop))
      rintro ⟨start, n⟩ htoken rfl
      rw [isToken_iff_of_drop hdrop] at htoken
      exact hb htoken.1

/-- A backslash outside a literal escapes nothing, and a quote that nothing closes is
    passed over. -/
example : literals doubleQuote (bytes ['\\', '"', 'é', '"', '\'', '"']) = [⟨1, 4⟩] := by decide

/-- What is to be said of all tokens of a file. -/
structure IsTokenized (source : Source) (tokens : List Span) : Prop where
  leftmost : source.Tokens 0 tokens
  unique : ∀ others, source.Tokens 0 others → others = tokens
  isToken : ∀ span ∈ tokens, source.IsToken span
  /-- Each is a piece of the file, so that none of its numbers is larger than the
      file. -/
  fitsIn : ∀ span ∈ tokens, span.FitsIn source.chars
  disjoint : tokens.Pairwise fun a b => a.stop ≤ b.start
  /-- No quote inside one of them starts another one. -/
  not_inside : ∀ taken ∈ tokens, ∀ span ∈ tokens,
    ¬ (taken.start < span.start ∧ span.start < taken.stop)
  /-- A literal is among them, unless it starts inside one of them. -/
  complete : ∀ span, source.IsToken span → span ∈ tokens ∨
    ∃ taken ∈ tokens, taken.start < span.start ∧ span.start < taken.stop

theorem Tokens.isTokenized (h : source.Tokens 0 spans) : source.IsTokenized spans where
  leftmost := h
  unique := fun _ h' => h.unique h'
  isToken := fun _ hmem => (h.isToken_of_mem hmem).1
  fitsIn := fun _ hmem => (h.isToken_of_mem hmem).1.quotes.fitsIn
  disjoint := h.pairwise
  not_inside := by
    rintro taken htaken span hspan ⟨hafter, hbefore⟩
    have hle := h.stop_le_start htaken hspan hafter
    omega
  complete := by
    intro span htoken
    -- What is not taken starts inside a token, since only one can start at each offset.
    rcases h.covers htoken (Nat.zero_le _) with ⟨taken, hmem, hle, hlt⟩
    rcases Nat.eq_or_lt_of_le hle with heq | hinside
    · left
      rwa [htoken.eq_of_start (h.isToken_of_mem hmem).1 heq.symm]
    · exact Or.inr ⟨taken, hmem, hinside, hlt⟩

end Source

namespace Report

/-- The loop over a file from an offset on: at a double quote that starts a literal it
    looks for a reminder in the literal and goes on after it, and anywhere else it
    goes on after one byte. -/
def scan? (source : Source) (offset : Nat) : Option (List Span) :=
  if hlt : offset < (bytes source.chars).length then
    if (bytes source.chars)[offset] = doubleQuote then
      match source.quotedAt? offset with
      | none => none
      | some span =>
        if hpoint : span.isPoint = true then scan? source (offset + 1)
        else do
          let covered ← source.textOf? span
          let others ← scan? source (offset + span.length)
          return if mentions "TODO".toList covered then span :: others else others
    else scan? source (offset + 1)
  else some []
termination_by (bytes source.chars).length - offset
decreasing_by
  · omega
  · have hpos : span.length ≠ 0 := fun hzero => hpoint (beq_iff_eq.mpr hzero)
    omega
  · omega

variable {source : Source}

theorem reminds_iff (span : Span) : reminds source span = true ↔
    ∃ covered, source.textOf? span = some covered ∧ "TODO".toList <:+: covered := by
  rw [reminds, Option.any_eq_true]
  simp only [mentions_iff]

/-- The loop ends with the tokens that contain a reminder, from wherever it starts. -/
theorem scan?_of_tokens {place : Nat} {spans : List Span} (h : source.Tokens place spans) :
    scan? source place = some (spans.filter (reminds source)) := by
  -- Along the loop: each round passes a token or a byte at which none starts.
  fun_induction scan? source place generalizing spans with
  | case1 offset hlt hquote hnone =>
      -- The source has an answer everywhere in the file.
      rw [Source.quotedAt?_eq_none_iff, ← length_bytes] at hnone
      exact absurd hlt (Nat.not_lt_of_gt hnone)
  | case2 offset hlt hquote span hfound hpoint ih =>
      -- Nothing closes this quote, so no token starts at it.
      refine ih ((Source.Tokens.succ_iff ?_).mpr h)
      rintro token htoken rfl
      have hclosed := htoken.closed
      rw [htoken.found, Option.some.injEq] at hfound
      rw [hfound, hpoint] at hclosed
      exact Bool.noConfusion hclosed
  | case3 offset hlt hquote span hfound hpoint ih =>
      have hstart : span.start = offset := by
        rw [Source.quotedAt?_of_le (length_bytes source.chars ▸ Nat.le_of_lt hlt),
          Option.some.injEq] at hfound
        rw [← hfound]
      -- The literal is the next token, and its text can be read.
      subst hstart
      have htoken : source.IsToken span :=
        ⟨(List.getElem?_eq_getElem hlt).trans (congrArg some hquote), hfound,
          Bool.eq_false_iff.mpr hpoint⟩
      rcases h.exists_of_isToken htoken with ⟨rest, rfl, hrest⟩
      rcases htoken.quotes.fitsIn.exists_slice? with ⟨covered, hslice⟩
      have hcovered : source.textOf? span = some covered := hslice
      have hreminds : reminds source span = mentions "TODO".toList covered := by
        rw [reminds, hcovered, Option.any_some]
      rw [hcovered, ih hrest, List.filter_cons, hreminds]
      rfl
  | case4 offset hlt hquote ih =>
      refine ih ((Source.Tokens.succ_iff ?_).mpr h)
      rintro token htoken rfl
      -- Every token starts with a double quote, and this byte is another one.
      have hget := htoken.quote
      rw [List.getElem?_eq_getElem hlt, Option.some.injEq] at hget
      exact hquote hget
  | case5 offset hlt =>
      -- Behind the last byte there is no token left.
      cases h with
      | done _ => rfl
      | next hle htoken _ _ =>
          have hend := htoken.start_lt_length
          omega

/-- What the report stages. The loop over the file ends, and the literals that it
    stages are those of the tokens that contain a reminder, in their order. A deferred
    sink hands over one warning for each of them. -/
theorem stages_tokens (source : Source) :
    ∃ tokens warnings, source.IsTokenized tokens ∧
      (∀ span, reminds source span = true ↔
        ∃ covered, source.textOf? span = some covered ∧ "TODO".toList <:+: covered) ∧
      scan? source 0 = some (tokens.filter (reminds source)) ∧
      reminders? source = some warnings ∧ staged? warnings = some warnings ∧
      warnings = (tokens.filter (reminds source)).map fun span =>
        { source := some source, span, text := "string mentions TODO", kind := .warning } := by
  have htokens : source.Tokens 0 (literals doubleQuote (bytes source.chars)) :=
    @Source.tokens_literalsFrom source 0 0 _ List.drop_zero
  exact ⟨_, _, htokens.isTokenized, reminds_iff, scan?_of_tokens htokens, reminders?_eq source,
    staged?_eq _, rfl⟩

end Report

end Diagnostics
