import Diagnostics.Proofs.Text.Bytes
import Diagnostics.Proofs.Text.Grammar

/-!
# Quotes that a Scan Comes Past

A scan from one quote and a scan from a later quote of the same kind read the
same bytes, but they need not agree on them: a backslash escapes what follows
it, unless it is itself escaped, and which of the two it is depends on where
the scan has started. After a run of backslashes the two could be out of step
for good.

They never are, and the reason is the later quote itself. The first scan
either stops at it or in front of it, or comes past it, and it comes past a
quote only by an escape. So the backslash in front of the quote was free to
take it along, and right behind the quote the first scan starts afresh, which
is where the second scan starts. From there on they are one scan.

## Main definitions

* `IsEscapedFrom`: A quote that a scan comes past.

## Theorems

* `closes_or_escapes`: A scan stops at a quote, or comes past it by an escape.
* `closes_or_isEscapedFrom`: The same for two places among some bytes.
* `IsEscapedFrom.literalLength?_drop`: Behind an escaped quote two scans are
  one.
-/

namespace Diagnostics

namespace Text

variable {quote : UInt8} {bs : List UInt8} {offset place : Nat}

/-- A scan that has a quote before it stops there at the latest, or takes it along
    with a backslash. What it has met up to this backslash is a body. -/
theorem closes_or_escapes {front back : List UInt8} (h : bs = front ++ quote :: back) :
    (∃ n, closing? quote bs = some n ∧ n ≤ front.length + 1) ∨
      ∃ body, front = body ++ [backslash] ∧ IsBody quote body := by
  -- Along the scan: the quote is one of the bytes it takes in a step, or comes later.
  fun_induction closing? quote bs generalizing front with
  | case1 => exact absurd h.symm (List.append_ne_nil_of_right_ne_nil front (List.cons_ne_nil _ _))
  | case2 => exact Or.inl ⟨1, rfl, Nat.le_add_left 1 front.length⟩
  | case3 b hb =>
      cases front with
      | nil => exact absurd (List.cons.inj h).1 hb
      | cons c front =>
          rw [List.cons_append, List.cons.injEq] at h
          exact absurd h.2.symm (List.append_ne_nil_of_right_ne_nil front (List.cons_ne_nil _ _))
  | case4 escaped rest => exact Or.inl ⟨1, rfl, Nat.le_add_left 1 front.length⟩
  | case5 escaped rest hb ih =>
      cases front with
      | nil => exact absurd (List.cons.inj h).1 hb
      | cons b front =>
          rw [List.cons_append, List.cons.injEq] at h
          rcases h with ⟨rfl, hrest⟩
          cases front with
          | nil =>
              -- The quote is what this backslash takes along.
              exact Or.inr ⟨[], rfl, .nil⟩
          | cons c front =>
              rw [List.cons_append, List.cons.injEq] at hrest
              rcases hrest with ⟨rfl, hrest⟩
              rcases ih hrest with ⟨n, hclosing, hle⟩ | ⟨body, rfl, hbody⟩
              · refine Or.inl ⟨n + 2, by rw [hclosing, Option.map_some], ?_⟩
                rw [List.length_cons, List.length_cons]
                omega
              · exact Or.inr ⟨backslash :: escaped :: body, rfl, .escaped hbody⟩
  | case6 b escaped rest hb hne ih =>
      cases front with
      | nil => exact absurd (List.cons.inj h).1 hb
      | cons c front =>
          rw [List.cons_append, List.cons.injEq] at h
          rcases h with ⟨rfl, hrest⟩
          rcases ih hrest with ⟨n, hclosing, hle⟩ | ⟨body, rfl, hbody⟩
          · refine Or.inl ⟨n + 1, by rw [hclosing, Option.map_some], ?_⟩
            rw [List.length_cons]
            omega
          · exact Or.inr ⟨b :: body, rfl, .plain hb hne hbody⟩

theorem literalLength?_quote (hquote : isQuote quote = true) (rest : List UInt8) :
    literalLength? (quote :: rest) = (closing? quote rest).map (· + 1) := by
  rw [literalLength?, if_pos hquote]

theorem pos_of_literalLength? {n : Nat} (h : literalLength? bs = some n) : 0 < n := by
  rcases literalLength?_eq_some_iff.mp h with ⟨literal, back, -, hliteral, rfl⟩
  cases hliteral with
  | quoted => exact Nat.succ_pos _

/-- A quote at `place` that a scan from a quote at `offset` comes past. What is
    between the two ends with a backslash, and the rest of it is a body, so that
    nothing takes this backslash along. -/
def IsEscapedFrom (quote : UInt8) (bs : List UInt8) (offset place : Nat) : Prop :=
  ∃ front body back, bs = front ++ quote :: (body ++ backslash :: quote :: back) ∧
    IsBody quote body ∧ front.length = offset ∧ offset + body.length + 2 = place

/-- A literal that starts at a quote ends at the next one at the latest, or that one
    is escaped. -/
theorem closes_or_isEscapedFrom (hquote : isQuote quote = true) (hlt : offset < place)
    (hopening : bs[offset]? = some quote) (hplace : bs[place]? = some quote) :
    (∃ n, literalLength? (bs.drop offset) = some n ∧ offset + n ≤ place + 1) ∨
      IsEscapedFrom quote bs offset place := by
  rcases exists_of_getElem? hopening with ⟨front, rest, rfl, rfl⟩
  -- The bytes are those up to the first quote, those between the two, and the rest.
  have hrest : rest[place - (front.length + 1)]? = some quote := by
    rwa [List.getElem?_append_right (Nat.le_of_lt hlt), show place - front.length =
      place - (front.length + 1) + 1 by omega, List.getElem?_cons_succ] at hplace
  rcases exists_of_getElem? hrest with ⟨between, back, rfl, hbetween⟩
  rcases closes_or_escapes (rfl : between ++ quote :: back = _) with
    ⟨n, hclosing, hle⟩ | ⟨body, rfl, hbody⟩
  · -- The scan stops, and the quote in front of it makes the literal a byte longer.
    refine Or.inl ⟨n + 1, ?_, by omega⟩
    rw [List.drop_left, literalLength?_quote hquote, hclosing, Option.map_some]
  · rw [List.length_append, List.length_singleton] at hbetween
    refine Or.inr ⟨front, body, back, ?_, hbody, rfl, by omega⟩
    rw [List.append_assoc, List.singleton_append]

/-- From a quote and from one that is escaped from there, a literal ends at the same
    byte, or neither is closed. -/
theorem IsEscapedFrom.literalLength?_drop (hquote : isQuote quote = true)
    (h : IsEscapedFrom quote bs offset place) :
    literalLength? (bs.drop offset) =
      (literalLength? (bs.drop place)).map (· + (place - offset)) := by
  rcases h with ⟨front, body, back, rfl, hbody, rfl, rfl⟩
  have hne := ne_backslash_of_isQuote hquote
  -- The same bytes, cut at the second quote.
  have hplace : front ++ quote :: (body ++ backslash :: quote :: back) =
      (front ++ quote :: (body ++ [backslash])) ++ quote :: back := by
    simp only [List.append_assoc, List.cons_append, List.nil_append]
  have hlength : (front ++ quote :: (body ++ [backslash])).length =
      front.length + body.length + 2 := by
    simp only [List.length_append, List.length_cons, List.length_nil]
    omega
  -- The scan from the first quote goes over the body and the escape, and is the other one then.
  rw [List.drop_left, hplace, List.drop_left' hlength, literalLength?_quote hquote,
    literalLength?_quote hquote, closing?_body_append hne hbody, closing?_escaped hne,
    Option.map_map, Option.map_map, Option.map_map]
  congr 1
  funext n
  simp only [Function.comp_apply]
  omega

end Text

end Diagnostics
