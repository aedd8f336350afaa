import Diagnostics.Text.Offset

/-!
# ASCII among the Bytes

A text is scanned byte by byte in one place, for the quotes and backslashes of
its literals, and otherwise character by character. What lets a fact about
bytes be read as one about characters is that a byte below 128 is never part of
a longer character: each such byte is a character of its own, and what stands
before it and after it in the bytes are the bytes of two texts.

Nothing else of the encoding is needed. Whether a character takes two bytes or
four, and which ones, matters to nobody here.

## Theorems

* `utf8EncodeChar_cases`: A character is one small byte, or all its bytes are
  large.
* `count_bytes`: An ASCII character occurs as often as its byte does.
* `exists_of_bytes_eq`: A small byte is a character between two texts.
* `exists_of_getElem?`: A byte cuts what it stands in at its offset.
* `getElem?_bytes_iff`: So an ASCII character is found by its byte.
-/

namespace Diagnostics

namespace Text

/-- A byte whose highest bit was added to it is large. -/
theorem le_toNat_ofNat_add {n base : Nat} (hbase : 128 ≤ base) (hfits : n + base < 256) :
    128 ≤ (UInt8.ofNat (n + base)).toNat := by
  rw [UInt8.toNat_ofNat', Nat.mod_eq_of_lt hfits]
  omega

/-- The bytes of a character: itself, if it is ASCII, and otherwise none below
    128. -/
theorem utf8EncodeChar_cases (c : Char) :
    (c.toNat < 128 ∧ String.utf8EncodeChar c = [UInt8.ofNat c.toNat]) ∨
      (128 ≤ c.toNat ∧ ∀ b ∈ String.utf8EncodeChar c, 128 ≤ b.toNat) := by
  by_cases hascii : c.val.toNat ≤ 127
  · refine Or.inl ⟨Nat.lt_succ_of_le hascii, ?_⟩
    simp only [String.utf8EncodeChar, hascii, if_true]
    rfl
  · refine Or.inr ⟨Nat.lt_of_not_le hascii, ?_⟩
    -- The first byte says how many there are, and every byte has its highest
    -- bit set.
    intro b hb
    have htail : ∀ n, 128 ≤ (UInt8.ofNat (n % 64 + 128)).toNat := fun n =>
      le_toNat_ofNat_add (Nat.le_refl _) (by omega)
    simp only [String.utf8EncodeChar, hascii, if_false] at hb
    -- By the number of bytes: two, three or four.
    by_cases htwo : c.val.toNat ≤ 2047
    · simp only [htwo, if_true, List.mem_cons, List.not_mem_nil, or_false] at hb
      rcases hb with rfl | rfl
      · exact le_toNat_ofNat_add (by decide) (by omega)
      · exact htail _
    · by_cases hthree : c.val.toNat ≤ 65535
      · simp only [htwo, hthree, if_false, if_true, List.mem_cons, List.not_mem_nil, or_false] at hb
        rcases hb with rfl | rfl | rfl
        · exact le_toNat_ofNat_add (by decide) (by omega)
        · exact htail _
        · exact htail _
      · simp only [htwo, hthree, if_false, List.mem_cons, List.not_mem_nil, or_false] at hb
        rcases hb with rfl | rfl | rfl | rfl
        · exact le_toNat_ofNat_add (by decide) (by omega)
        · exact htail _
        · exact htail _
        · exact htail _

theorem utf8EncodeChar_of_lt {c : Char} (h : c.toNat < 128) :
    String.utf8EncodeChar c = [UInt8.ofNat c.toNat] := by
  rcases utf8EncodeChar_cases c with ⟨-, henc⟩ | ⟨hle, -⟩
  · exact henc
  · omega

theorem bytes_cons (c : Char) (cs : List Char) :
    bytes (c :: cs) = String.utf8EncodeChar c ++ bytes cs := rfl

theorem bytes_singleton (c : Char) : bytes [c] = String.utf8EncodeChar c :=
  List.append_nil _

/-- ASCII characters are told apart by their bytes. -/
theorem ofNat_toNat_inj {c d : Char} (hc : c.toNat < 128) (hd : d.toNat < 128) :
    UInt8.ofNat d.toNat = UInt8.ofNat c.toNat ↔ d = c := by
  rw [← UInt8.toNat_inj, UInt8.toNat_ofNat', UInt8.toNat_ofNat', Nat.mod_eq_of_lt (by omega),
    Nat.mod_eq_of_lt (by omega), Char.toNat_inj]

/-- An ASCII character occurs in a text as often as its byte does in the bytes
    of the text. -/
theorem count_bytes {c : Char} (hc : c.toNat < 128) (cs : List Char) :
    (bytes cs).count (UInt8.ofNat c.toNat) = cs.count c := by
  induction cs with
  | nil => rfl
  | cons d cs ih =>
      rw [bytes_cons, List.count_append, ih, List.count_cons, Nat.add_comm]
      congr 1
      -- A character is its own byte, or has none but large ones.
      rcases utf8EncodeChar_cases d with ⟨hd, henc⟩ | ⟨hd, henc⟩
      · rw [henc, List.count_singleton]
        simp only [beq_iff_eq, ofNat_toNat_inj hc hd]
      · have hne : ¬ (d == c) = true := fun h => by
          rw [beq_iff_eq.mp h] at hd
          omega
        rw [if_neg hne, List.count_eq_zero]
        intro hmem
        have hlarge := henc _ hmem
        rw [UInt8.toNat_ofNat', Nat.mod_eq_of_lt (by omega)] at hlarge
        omega

/-- A small byte is a character of its own, between the bytes of two texts. -/
theorem exists_of_bytes_eq {cs : List Char} {front back : List UInt8} {b : UInt8}
    (hb : b.toNat < 128) (h : bytes cs = front ++ b :: back) :
    ∃ before c after, cs = before ++ c :: after ∧ bytes before = front ∧
      String.utf8EncodeChar c = [b] ∧ bytes after = back := by
  induction cs generalizing front with
  | nil => exact absurd h.symm (List.append_ne_nil_of_right_ne_nil _ (List.cons_ne_nil _ _))
  | cons c cs ih =>
      rw [bytes_cons] at h
      rcases List.append_eq_append_iff.mp h with ⟨mid, rfl, hrest⟩ | ⟨mid, henc, hrest⟩
      · -- The byte comes after the bytes of the first character.
        rcases ih hrest with ⟨before, d, after, rfl, rfl, hd, rfl⟩
        exact ⟨c :: before, d, after, rfl, rfl, hd, rfl⟩
      · cases mid with
        | nil =>
            rw [List.append_nil] at henc
            have hnext : bytes cs = [] ++ b :: back := hrest.symm
            rcases ih hnext with ⟨before, d, after, rfl, hbefore, hd, rfl⟩
            refine ⟨c :: before, d, after, rfl, ?_, hd, rfl⟩
            rw [bytes_cons, hbefore, henc, List.append_nil]
        | cons b' mid =>
            -- The byte is one of the first character, which is therefore ASCII.
            rw [List.cons_append, List.cons.injEq] at hrest
            rcases hrest with ⟨rfl, rfl⟩
            rcases utf8EncodeChar_cases c with ⟨-, hsmall⟩ | ⟨-, hlarge⟩
            · rw [hsmall] at henc
              rcases List.singleton_eq_append_iff.mp henc with ⟨rfl, hb'⟩ | ⟨-, hb'⟩
              · rw [List.cons.injEq] at hb'
                rcases hb' with ⟨rfl, rfl⟩
                exact ⟨[], c, cs, rfl, rfl, hsmall, rfl⟩
              · exact absurd hb' (List.cons_ne_nil _ _)
            · have hmem := hlarge b (henc ▸ List.mem_append_right _ List.mem_cons_self)
              omega

/-- A byte cuts what it stands in at its offset. -/
theorem exists_of_getElem? {bs : List UInt8} {i : Nat} {b : UInt8} (h : bs[i]? = some b) :
    ∃ front back, bs = front ++ b :: back ∧ front.length = i := by
  rcases List.getElem?_eq_some_iff.mp h with ⟨hlt, rfl⟩
  rcases @List.exists_of_set _ i bs[i] bs hlt with ⟨front, back, hcut, hlength, -⟩
  exact ⟨front, back, hcut, hlength⟩

/-- The byte of an ASCII character stands at an offset of the bytes exactly if the
    character stands there in the text. -/
theorem getElem?_bytes_iff {c : Char} (hc : c.toNat < 128) {cs : List Char} {i : Nat} :
    (bytes cs)[i]? = some (UInt8.ofNat c.toNat) ↔
      ∃ before after, cs = before ++ c :: after ∧ byteLength before = i := by
  -- Small as it is, the byte can be of no other character.
  have hsmall : (UInt8.ofNat c.toNat).toNat < 128 := by
    rw [UInt8.toNat_ofNat', Nat.mod_eq_of_lt (by omega)]
    exact hc
  constructor
  · intro h
    rcases exists_of_getElem? h with ⟨front, back, hcut, hlength⟩
    rcases exists_of_bytes_eq hsmall hcut with ⟨before, d, after, rfl, hbefore, henc, -⟩
    refine ⟨before, after, ?_, ?_⟩
    · -- A character of one byte is the one that the byte says.
      rcases utf8EncodeChar_cases d with ⟨hd, hd'⟩ | ⟨-, hlarge⟩
      · rw [hd', List.cons.injEq, ofNat_toNat_inj hc hd] at henc
        rw [henc.1]
      · have hle := hlarge _ (henc ▸ List.mem_singleton_self _)
        omega
    · rw [← length_bytes, hbefore, hlength]
  · rintro ⟨before, after, rfl, rfl⟩
    rw [bytes_append, bytes_cons, utf8EncodeChar_of_lt hc, ← length_bytes,
      List.getElem?_append_right (Nat.le_refl _), Nat.sub_self]
    rfl

end Text

end Diagnostics
