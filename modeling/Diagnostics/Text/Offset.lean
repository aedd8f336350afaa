/-!
# Byte Offsets into a Text

A text is a list of characters here, and a place in it is the number of UTF-8
bytes before it. The two do not always meet: an offset may lie past the end,
or inside a character that takes several bytes. `splitAt?` is the only way
from an offset into a text, and it answers `none` in exactly those cases, so
everything that resolves a range says by its `Option` whether the range was
one.

Cutting recurses on the characters and never looks at bytes. What it means
for the bytes is `splitAt?_eq_some_iff`: a cut is a way of writing the text as
two pieces, the first of which has the given length.

`bytes` is the other view of the same text, for the one scan that is defined
on bytes rather than on characters.

## Main definitions

* `byteLength`: The number of UTF-8 bytes of a text.
* `bytes`: The UTF-8 bytes of a text.
* `splitAt?`: The text before and after a byte offset.
* `slice?`: The text covered by a start and a length in bytes.

## Theorems

* `byteLength_append`: Lengths add up.
* `length_bytes`: There are as many bytes as the length says.
* `splitAt?_byteLength_append`: Cutting at the end of a piece returns it.
* `splitAt?_eq_some_iff`: A cut is a decomposition of the text.
* `slice?_append`: A piece is found by lengths.
-/

namespace Diagnostics

namespace Text

/-- The length of a text in bytes. -/
def byteLength (cs : List Char) : Nat :=
  cs.foldr (fun c length => c.utf8Size + length) 0

@[simp] theorem byteLength_nil : byteLength [] = 0 := rfl

@[simp] theorem byteLength_cons (c : Char) (cs : List Char) :
    byteLength (c :: cs) = c.utf8Size + byteLength cs := rfl

@[simp] theorem byteLength_append (a b : List Char) :
    byteLength (a ++ b) = byteLength a + byteLength b := by
  induction a with
  | nil => rw [List.nil_append, byteLength_nil, Nat.zero_add]
  | cons c a ih => rw [List.cons_append, byteLength_cons, byteLength_cons, ih, Nat.add_assoc]

theorem byteLength_eq_zero_iff {cs : List Char} : byteLength cs = 0 ↔ cs = [] := by
  cases cs with
  | nil => exact iff_of_true rfl rfl
  | cons c cs =>
    have hpos := c.utf8Size_pos
    simp only [byteLength_cons, reduceCtorEq, iff_false]
    omega

/-- The bytes of a text. -/
def bytes (cs : List Char) : List UInt8 :=
  cs.flatMap String.utf8EncodeChar

@[simp] theorem bytes_append (a b : List Char) : bytes (a ++ b) = bytes a ++ bytes b :=
  List.flatMap_append

@[simp] theorem length_bytes (cs : List Char) : (bytes cs).length = byteLength cs := by
  induction cs with
  | nil => rfl
  | cons c cs ih =>
    rw [byteLength_cons, ← ih, bytes, List.flatMap_cons, List.length_append,
      String.length_utf8EncodeChar]
    rfl

/-- The text before and after a byte offset, or `none` if the offset lies past
    the end or inside a character. -/
def splitAt? : Nat → List Char → Option (List Char × List Char)
  | 0, cs => some ([], cs)
  | _ + 1, [] => none
  | n + 1, c :: cs =>
    if c.utf8Size ≤ n + 1 then
      (splitAt? (n + 1 - c.utf8Size) cs).map fun cut => (c :: cut.1, cut.2)
    else none

/-- The text of `length` bytes from the byte offset `start`. -/
def slice? (start length : Nat) (cs : List Char) : Option (List Char) := do
  let (_, rest) ← splitAt? start cs
  let (covered, _) ← splitAt? length rest
  return covered

theorem splitAt?_byteLength_append (a b : List Char) :
    splitAt? (byteLength a) (a ++ b) = some (a, b) := by
  induction a with
  | nil => rw [byteLength_nil, List.nil_append, splitAt?]
  | cons c a ih =>
    -- A character takes a byte at least, so the length is a successor, as the cut
    -- wants it.
    have hpos := c.utf8Size_pos
    have hlength : byteLength (c :: a) ≠ 0 := by
      rw [byteLength_cons]
      omega
    rcases Nat.exists_eq_succ_of_ne_zero hlength with ⟨n, hn⟩
    rw [hn, List.cons_append, splitAt?]
    rw [byteLength_cons] at hn
    have hrest : n + 1 - c.utf8Size = byteLength a := by omega
    rw [if_pos (by omega), hrest, ih]
    rfl

/-- A cut at `n` is a way of writing the text as two pieces, the first of them
    `n` bytes long. -/
theorem splitAt?_eq_some_iff {n : Nat} {cs a b : List Char} :
    splitAt? n cs = some (a, b) ↔ cs = a ++ b ∧ byteLength a = n := by
  constructor
  · intro h
    -- Along the characters. A cut at zero takes none of them, and any other takes the
    -- first one as a whole or fails.
    induction cs generalizing n a b with
    | nil =>
      cases n with
      | zero =>
        rw [splitAt?, Option.some.injEq, Prod.mk.injEq] at h
        rcases h with ⟨rfl, rfl⟩
        exact ⟨rfl, rfl⟩
      | succ n => exact absurd h.symm (Option.some_ne_none _)
    | cons c cs ih =>
      cases n with
      | zero =>
        rw [splitAt?, Option.some.injEq, Prod.mk.injEq] at h
        rcases h with ⟨rfl, rfl⟩
        exact ⟨rfl, rfl⟩
      | succ n =>
        rw [splitAt?, Option.ite_none_right_eq_some] at h
        rcases h with ⟨hfits, hmap⟩
        rcases Option.map_eq_some_iff.mp hmap with ⟨⟨a', b'⟩, hcut, heq⟩
        rw [Prod.mk.injEq] at heq
        rcases heq with ⟨rfl, rfl⟩
        rcases ih hcut with ⟨rfl, hlength⟩
        refine ⟨rfl, ?_⟩
        rw [byteLength_cons, hlength]
        omega
  · rintro ⟨rfl, rfl⟩
    exact splitAt?_byteLength_append a b

/-- A piece is found by the lengths of what comes before it and of itself. -/
theorem slice?_append (a b c : List Char) :
    slice? (byteLength a) (byteLength b) (a ++ (b ++ c)) = some b := by
  simp only [slice?, splitAt?_byteLength_append, Option.bind_eq_bind, Option.bind_some,
    Option.pure_def]

end Text

end Diagnostics
