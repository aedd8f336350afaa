import Diagnostics.Proofs.Report.Scan
import Diagnostics.Proofs.Text.InnerQuotes

/-!
# Quotes that Nothing Closes

A quote is easily forgotten, and then every later quote of the file may be taken
for the wrong end of a literal. The report does not give up at a double quote
that nothing closes: it goes on behind it and tries again at the next one. So
one might expect warnings about literals that are none, made of what stands
between two of them.

There are no such warnings. Where nothing closes a quote, each later quote of
its kind is escaped, and a scan from there reads on as the first one did. So
nothing closes it either. For the same reason a quote inside a literal finds
the end of that literal and nothing else.

For the report this is said of its loop, round by round: where it comes by, and
what it has staged by then. When it comes to a double quote that nothing closes
it has staged all that it ever will. It need not come to each of them, because
such a quote may also close a literal; then it comes by right behind it.

## Main definitions

* `Source.IsUnclosed`: A double quote that nothing closes.
* `Report.Arrives`: Where the loop comes by, and what it has staged by then.
* `Report.IsPassedOver`: A place inside a literal that the loop takes.
* `Report.IsSettledAt`: Nothing more is staged from some place on.

## Theorems

* `Source.isEscapedFrom_of_quotedAt?`: Which quotes are escaped from an earlier
  one.
* `Source.quotedAt?_of_isEscapedFrom`: Two such quotes have the same end, or
  none.
* `Source.IsUnclosed.start_lt`: No token starts behind a quote that nothing
  closes.
* `Report.scan?_of_arrives`: The loop goes on from where it has arrived.
* `Report.arrives_or_isPassedOver`: The loop comes by everywhere but inside the
  literals that it takes.
* `Report.isSettledAt_of_isUnclosed`: Behind such a quote nothing is staged.
* `Report.leaves_none_of_unclosed`: All of this together.
-/

namespace Diagnostics

open Text

namespace Source

section Quotes

variable {source : Source} {quote : UInt8} {offset place n : Nat}

theorem le_byteLength_of_getElem? {b : UInt8} (h : (bytes source.chars)[offset]? = some b) :
    offset ≤ byteLength source.chars := by
  rw [← length_bytes]
  exact Nat.le_of_lt (List.getElem?_eq_some_iff.mp h).1

/-- A quote is escaped from one before it, unless a literal from there ends at it or
    in front of it. -/
theorem isEscapedFrom_of_quotedAt? (hquote : isQuote quote = true) (hlt : offset < place)
    (hopening : (bytes source.chars)[offset]? = some quote)
    (hplace : (bytes source.chars)[place]? = some quote)
    (hanswer : source.quotedAt? offset = some ⟨offset, n⟩)
    (hinside : n = 0 ∨ place + 1 < offset + n) :
    IsEscapedFrom quote (bytes source.chars) offset place := by
  rcases closes_or_isEscapedFrom hquote hlt hopening hplace with ⟨m, hlength, hle⟩ | hescaped
  · -- A literal that ends at the quote or before it is ruled out by its length.
    rw [quotedAt?_of_le (le_byteLength_of_getElem? hopening), hlength, Option.getD_some,
      Option.some.injEq, Span.mk.injEq] at hanswer
    have hpos := pos_of_literalLength? hlength
    omega
  · exact hescaped

/-- A quote and one that is escaped from there: neither starts a literal, or both
    start one, with the same end. -/
theorem quotedAt?_of_isEscapedFrom (hquote : isQuote quote = true)
    (hopening : (bytes source.chars)[offset]? = some quote)
    (hplace : (bytes source.chars)[place]? = some quote)
    (h : IsEscapedFrom quote (bytes source.chars) offset place) :
    (source.quotedAt? offset = some ⟨offset, 0⟩ ∧ source.quotedAt? place = some ⟨place, 0⟩) ∨
      ∃ m, 0 < m ∧ source.quotedAt? offset = some ⟨offset, m + (place - offset)⟩ ∧
        source.quotedAt? place = some ⟨place, m⟩ := by
  rw [quotedAt?_of_le (le_byteLength_of_getElem? hopening),
    quotedAt?_of_le (le_byteLength_of_getElem? hplace), h.literalLength?_drop hquote]
  cases hlength : literalLength? ((bytes source.chars).drop place) with
  | none => exact Or.inl ⟨rfl, rfl⟩
  | some m => exact Or.inr ⟨m, pos_of_literalLength? hlength, rfl, rfl⟩

/-- Behind a quote that nothing closes, nothing closes a quote of its kind. -/
theorem quotedAt?_of_unclosed (hquote : isQuote quote = true) (hlt : offset < place)
    (hopening : (bytes source.chars)[offset]? = some quote)
    (hplace : (bytes source.chars)[place]? = some quote)
    (hunclosed : source.quotedAt? offset = some ⟨offset, 0⟩) :
    source.quotedAt? place = some ⟨place, 0⟩ := by
  have hescaped := isEscapedFrom_of_quotedAt? hquote hlt hopening hplace hunclosed (Or.inl rfl)
  rcases quotedAt?_of_isEscapedFrom hquote hopening hplace hescaped with
    ⟨-, hpoint⟩ | ⟨m, hpos, hanswer, -⟩
  · exact hpoint
  · -- Both would start a literal, but the first one does not.
    rw [hunclosed, Option.some.injEq, Span.mk.injEq] at hanswer
    omega

/-- A quote inside a literal is escaped, and starts a literal that ends with it. -/
theorem quotedAt?_of_inside (hquote : isQuote quote = true) (hlt : offset < place)
    (hopening : (bytes source.chars)[offset]? = some quote)
    (hplace : (bytes source.chars)[place]? = some quote)
    (hliteral : source.quotedAt? offset = some ⟨offset, n⟩) (hinside : place + 1 < offset + n) :
    IsEscapedFrom quote (bytes source.chars) offset place ∧
      ∃ m, 0 < m ∧ source.quotedAt? place = some ⟨place, m⟩ ∧ place + m = offset + n := by
  have hescaped :=
    isEscapedFrom_of_quotedAt? hquote hlt hopening hplace hliteral (Or.inr hinside)
  refine ⟨hescaped, ?_⟩
  rcases quotedAt?_of_isEscapedFrom hquote hopening hplace hescaped with
    ⟨hpoint, -⟩ | ⟨m, hpos, hanswer, hlater⟩
  · -- Neither would start one, but the first one does.
    rw [hliteral, Option.some.injEq, Span.mk.injEq] at hpoint
    omega
  · rw [hliteral, Option.some.injEq, Span.mk.injEq] at hanswer
    exact ⟨m, hpos, hlater, by omega⟩

end Quotes

/-- A double quote that nothing closes. -/
structure IsUnclosed (source : Source) (offset : Nat) : Prop where
  quote : (bytes source.chars)[offset]? = some doubleQuote
  point : source.quotedAt? offset = some ⟨offset, 0⟩

variable {source : Source} {offset place : Nat} {span : Span}

/-- No token starts at such a quote. -/
theorem IsUnclosed.start_ne (h : source.IsUnclosed offset) (htoken : source.IsToken span) :
    span.start ≠ offset := by
  rintro rfl
  have hpos := htoken.length_pos
  have hfound := htoken.found
  rw [h.point, Option.some.injEq] at hfound
  rw [← hfound] at hpos
  exact Nat.lt_irrefl 0 hpos

/-- Nor behind it. -/
theorem IsUnclosed.start_lt (h : source.IsUnclosed offset) (htoken : source.IsToken span) :
    span.start < offset := by
  rcases Nat.lt_trichotomy span.start offset with hlt | heq | hgt
  · exact hlt
  · exact absurd heq (h.start_ne htoken)
  · -- A token behind it would be one more quote that nothing closes.
    have hlater : source.IsUnclosed span.start :=
      ⟨htoken.quote, quotedAt?_of_unclosed (by decide) hgt h.quote htoken.quote h.point⟩
    exact absurd rfl (hlater.start_ne htoken)

/-- Such a quote is not inside a token, but may be the last byte of one. -/
theorem IsUnclosed.stop_le (h : source.IsUnclosed offset) (htoken : source.IsToken span) :
    span.stop ≤ offset + 1 := by
  by_contra hgt
  rcases quotedAt?_of_inside (by decide) (h.start_lt htoken) htoken.quote h.quote htoken.found
    (Nat.lt_of_not_le hgt) with ⟨-, m, hpos, hanswer, -⟩
  rw [h.point, Option.some.injEq, Span.mk.injEq] at hanswer
  omega

theorem exists_tokens (source : Source) (place : Nat) : ∃ spans, source.Tokens place spans :=
  ⟨_, @tokens_literalsFrom source 0 place _ rfl⟩

/-- What there can be at an offset: another byte, a quote that nothing closes, or a
    token. -/
theorem byte_or_quote (h : offset < (bytes source.chars).length) :
    (∃ b, (bytes source.chars)[offset]? = some b ∧ b ≠ doubleQuote) ∨
      source.IsUnclosed offset ∨ ∃ span, source.IsToken span ∧ span.start = offset := by
  have hget := List.getElem?_eq_getElem h
  by_cases hquote : (bytes source.chars)[offset] = doubleQuote
  · rw [hquote] at hget
    -- At a double quote the answer has a length, or it is a point.
    have hanswer := quotedAt?_of_le (le_byteLength_of_getElem? hget)
    cases hlength : literalLength? ((bytes source.chars).drop offset) with
    | none =>
        rw [hlength] at hanswer
        exact Or.inr (Or.inl ⟨hget, hanswer⟩)
    | some n =>
        rw [hlength] at hanswer
        have hne := Nat.pos_iff_ne_zero.mp (pos_of_literalLength? hlength)
        exact Or.inr (Or.inr ⟨⟨offset, n⟩, ⟨hget, hanswer, beq_eq_false_iff_ne.mpr hne⟩, rfl⟩)
  · exact Or.inl ⟨_, hget, hquote⟩

end Source

namespace Report

variable {source : Source} {offset place : Nat} {staged : List Span} {span : Span}

/-- Where the loop over a file comes by, with what it has staged by then. It goes on
    after one byte where there is no double quote, or one that nothing closes, and
    else after the literal. -/
inductive Arrives (source : Source) : Nat → List Span → Prop
  | start : Arrives source 0 []
  | byte {offset : Nat} {staged : List Span} {b : UInt8} (h : Arrives source offset staged)
      (hget : (bytes source.chars)[offset]? = some b) (hne : b ≠ doubleQuote) :
      Arrives source (offset + 1) staged
  | unclosed {offset : Nat} {staged : List Span} (h : Arrives source offset staged)
      (hunclosed : source.IsUnclosed offset) : Arrives source (offset + 1) staged
  | token {span : Span} {staged : List Span} (h : Arrives source span.start staged)
      (htoken : source.IsToken span) :
      Arrives source span.stop (staged ++ [span].filter (reminds source))

/-- The loop has passed some tokens, and staged those of them that contain a
    reminder. The tokens of the file are these and the ones from where it stands. -/
theorem Arrives.exists_passed (h : Arrives source place staged) :
    ∃ passed, staged = passed.filter (reminds source) ∧
      ∀ spans, source.Tokens place spans → source.Tokens 0 (passed ++ spans) := by
  -- By the rounds: only a round at a token changes what has been passed.
  induction h with
  | start => exact ⟨[], rfl, fun _ h => h⟩
  | byte _ hget hne ih =>
      rcases ih with ⟨passed, hstaged, htokens⟩
      refine ⟨passed, hstaged, fun spans h => htokens spans ((Source.Tokens.succ_iff ?_).mp h)⟩
      -- No token starts at a byte that is no double quote.
      rintro span htoken rfl
      rw [htoken.quote, Option.some.injEq] at hget
      exact hne hget.symm
  | unclosed _ hunclosed ih =>
      rcases ih with ⟨passed, hstaged, htokens⟩
      exact ⟨passed, hstaged, fun spans h =>
        htokens spans ((Source.Tokens.succ_iff fun _ => hunclosed.start_ne).mp h)⟩
  | @token span staged _ htoken ih =>
      rcases ih with ⟨passed, rfl, htokens⟩
      refine ⟨passed ++ [span], (List.filter_append _ _).symm, fun spans h => ?_⟩
      -- A token that the loop takes is the next one of the file.
      rw [List.append_assoc, List.singleton_append]
      exact htokens _ (.next (Nat.le_refl _) htoken (fun _ _ hle => hle) h)

/-- The loop goes on from where it has arrived, and adds to what it has staged. -/
theorem scan?_of_arrives (h : Arrives source place staged) :
    scan? source 0 = (scan? source place).map (staged ++ ·) := by
  rcases h.exists_passed with ⟨passed, rfl, htokens⟩
  rcases source.exists_tokens place with ⟨spans, hspans⟩
  rw [scan?_of_tokens (htokens spans hspans), scan?_of_tokens hspans, List.filter_append,
    Option.map_some]

/-- An offset inside a literal that the loop takes. -/
def IsPassedOver (source : Source) (offset : Nat) : Prop :=
  ∃ taken staged, source.IsToken taken ∧ Arrives source taken.start staged ∧
    taken.start < offset ∧ offset < taken.stop

/-- From a byte of a literal that it takes, the loop gets to the next byte by leaving
    the literal, or that byte is inside of it too. -/
theorem Arrives.arrives_or_isPassedOver (h : Arrives source span.start staged)
    (htoken : source.IsToken span) (hstart : span.start ≤ offset) (hstop : offset < span.stop) :
    (∃ staged, Arrives source (offset + 1) staged) ∨ IsPassedOver source (offset + 1) := by
  rcases Nat.eq_or_lt_of_le (Nat.succ_le_of_lt hstop) with heq | hlt
  · have hnext := h.token htoken
    rw [← heq] at hnext
    exact Or.inl ⟨_, hnext⟩
  · exact Or.inr ⟨span, staged, htoken, h, Nat.lt_succ_of_le hstart, hlt⟩

/-- The loop comes by everywhere but inside the literals that it takes. -/
theorem arrives_or_isPassedOver (h : offset ≤ (bytes source.chars).length) :
    (∃ staged, Arrives source offset staged) ∨ IsPassedOver source offset := by
  induction offset with
  | zero => exact Or.inl ⟨[], .start⟩
  | succ offset ih =>
      rcases ih (Nat.le_of_succ_le h) with ⟨staged, harrives⟩ |
        ⟨taken, staged, htoken, harrives, hstart, hstop⟩
      · -- The loop comes by, and goes on by what it finds.
        rcases Source.byte_or_quote (Nat.lt_of_succ_le h) with ⟨b, hget, hne⟩ | hunclosed |
          ⟨span, htoken, rfl⟩
        · exact Or.inl ⟨staged, harrives.byte hget hne⟩
        · exact Or.inl ⟨staged, harrives.unclosed hunclosed⟩
        · exact harrives.arrives_or_isPassedOver htoken (Nat.le_refl _) htoken.start_lt_stop
      · -- It does not, being in the middle of a literal.
        exact harrives.arrives_or_isPassedOver htoken (Nat.le_of_lt hstart) hstop

/-- Nothing more is staged from an offset on. -/
structure IsSettledAt (source : Source) (offset : Nat) : Prop where
  /-- Wherever the loop goes on from there, it stages nothing. -/
  rest : ∀ place, offset ≤ place → scan? source place = some []
  /-- The loop does come by, or else the byte there is the last one of a literal, and
      the loop comes by right behind it. -/
  met : (∃ staged, Arrives source offset staged) ∨
    ∃ taken staged, source.IsToken taken ∧ taken.stop = offset + 1 ∧
      Arrives source taken.stop staged
  /-- What it has staged when it comes by is all that it stages, and what the report
      goes on with. -/
  all : ∀ place staged, offset ≤ place → Arrives source place staged →
    scan? source 0 = some staged ∧
      ∃ warnings, reminders? source = some warnings ∧ staged? warnings = some warnings ∧
        warnings = staged.map fun span =>
          { source := some source, span, text := "string mentions TODO", kind := .warning }
  /-- These literals start in front of the byte there, and end with it at the
      latest. -/
  before : ∀ staged, scan? source 0 = some staged →
    ∀ span ∈ staged, span.start < offset ∧ span.stop ≤ offset + 1

/-- The report warns about what the loop stages. -/
theorem reminders_of_scan? (h : scan? source 0 = some staged) :
    reminders source = staged.map fun span =>
      { source := some source, span, text := "string mentions TODO", kind := .warning } := by
  have htokens : source.Tokens 0 (literals doubleQuote (bytes source.chars)) :=
    @Source.tokens_literalsFrom source 0 0 _ List.drop_zero
  rw [scan?_of_tokens htokens, Option.some.injEq] at h
  rw [reminders, h]

theorem isToken_of_scan? (h : scan? source 0 = some staged) (hmem : span ∈ staged) :
    source.IsToken span := by
  rcases source.exists_tokens 0 with ⟨spans, hspans⟩
  rw [scan?_of_tokens hspans, Option.some.injEq] at h
  rw [← h] at hmem
  exact (hspans.isToken_of_mem (List.mem_filter.mp hmem).1).1

/-- From a quote that nothing closes, the loop stages nothing. -/
theorem scan?_of_isUnclosed (h : source.IsUnclosed offset) (hle : offset ≤ place) :
    scan? source place = some [] :=
  scan?_of_tokens (.done fun _ htoken => Nat.lt_of_lt_of_le (h.start_lt htoken) hle)

theorem isSettledAt_of_isUnclosed (h : source.IsUnclosed offset) : IsSettledAt source offset where
  rest := fun _ => scan?_of_isUnclosed h
  met := by
    have hlt := (List.getElem?_eq_some_iff.mp h.quote).1
    rcases arrives_or_isPassedOver (Nat.le_of_lt hlt) with harrives |
      ⟨taken, staged, htoken, harrives, -, hinside⟩
    · exact Or.inl harrives
    · -- The quote is the one that closes this literal.
      have hstop := Nat.le_antisymm (h.stop_le htoken) hinside
      exact Or.inr ⟨taken, _, htoken, hstop, harrives.token htoken⟩
  all := by
    intro place staged hle harrives
    -- What it has staged is all, since the rest of the loop adds nothing.
    have hscan : scan? source 0 = some staged := by
      rw [scan?_of_arrives harrives, scan?_of_isUnclosed h hle, Option.map_some, List.append_nil]
    exact ⟨hscan, _, reminders?_eq source, staged?_eq _, reminders_of_scan? hscan⟩
  before := fun _ hscan _ hmem =>
    ⟨h.start_lt (isToken_of_scan? hscan hmem), h.stop_le (isToken_of_scan? hscan hmem)⟩

/-- A quote that nothing closes leaves none behind it that something closes, and a
    quote inside a literal finds the end of that literal. So the report stages nothing
    more once it has come to a double quote that nothing closes. -/
theorem leaves_none_of_unclosed (source : Source) :
    (∀ quote offset place, isQuote quote = true → offset < place →
      (bytes source.chars)[offset]? = some quote → (bytes source.chars)[place]? = some quote →
      (source.quotedAt? offset = some ⟨offset, 0⟩ → source.quotedAt? place = some ⟨place, 0⟩) ∧
      ∀ n, source.quotedAt? offset = some ⟨offset, n⟩ → place + 1 < offset + n →
        IsEscapedFrom quote (bytes source.chars) offset place ∧
          ∃ m, 0 < m ∧ source.quotedAt? place = some ⟨place, m⟩ ∧ place + m = offset + n) ∧
    ∀ offset, source.IsUnclosed offset → IsSettledAt source offset := by
  refine ⟨?_, fun offset => isSettledAt_of_isUnclosed⟩
  intro quote offset place hquote hlt hopening hplace
  -- Of two quotes of a kind the first is closed or not.
  refine ⟨Source.quotedAt?_of_unclosed hquote hlt hopening hplace, fun n hliteral hinside => ?_⟩
  exact Source.quotedAt?_of_inside hquote hlt hopening hplace hliteral hinside

/-- Two literals, the first one with an escaped quote behind two backslashes of which
    one escapes the other, and then a quote that nothing closes. -/
def forgotten : Source :=
  { index := 0
    absolutePath := "/abs/file.js"
    displayPath := "file.js"
    contents := String.ofList
      ['"', '\\', '\\', '\\', '"', 'b', '"', ' ', '"', 'T', 'O', 'D', 'O', '"', ' ',
        '"', 'c', '\\', '"', 'T', 'O', 'D', 'O'] }

/-- The escaped quote finds the end of its literal, and the quotes of the last one are
    not closed, so that the reminder behind them is not staged. -/
theorem leaves_none_of_unclosed_forgotten :
    IsEscapedFrom doubleQuote (bytes forgotten.chars) 0 4 ∧
    (∃ m, 0 < m ∧ forgotten.quotedAt? 4 = some ⟨4, m⟩ ∧ 4 + m = 0 + 7) ∧
    forgotten.quotedAt? 18 = some ⟨18, 0⟩ ∧ scan? forgotten 15 = some [] ∧
    Arrives forgotten 15 [⟨8, 6⟩] ∧ scan? forgotten 0 = some [⟨8, 6⟩] := by
  have hinside := ((leaves_none_of_unclosed forgotten).1 doubleQuote 0 4 (by decide) (by decide)
    (by decide) (by decide)).2 7 (by decide) (by decide)
  have hpoint := ((leaves_none_of_unclosed forgotten).1 doubleQuote 15 18 (by decide) (by decide)
    (by decide) (by decide)).1 (by decide)
  have hsettled := (leaves_none_of_unclosed forgotten).2 15 ⟨by decide, by decide⟩
  have hblank : (bytes forgotten.chars)[7]? = some 32 := by decide
  have hblank' : (bytes forgotten.chars)[14]? = some 32 := by decide
  -- The loop takes a literal and the blank behind it, twice.
  have hfirst : Arrives forgotten 8 [] :=
    .byte (@Arrives.token forgotten ⟨0, 7⟩ [] .start ⟨by decide, by decide, by decide⟩)
      hblank (by decide)
  have hsecond : Arrives forgotten 15 [⟨8, 6⟩] :=
    .byte (@Arrives.token forgotten ⟨8, 6⟩ [] hfirst ⟨by decide, by decide, by decide⟩)
      hblank' (by decide)
  exact ⟨hinside.1, hinside.2, hpoint, hsettled.rest 15 (Nat.le_refl _), hsecond,
    (hsettled.all 15 _ (Nat.le_refl _) hsecond).1⟩

end Report

end Diagnostics
