import Diagnostics.Counts.Reading
import Mathlib.Data.List.Induction

/-!
# Counts in Words Are Unambiguous

The words for counts have four shapes, which overlap: a text that starts with a
number of warnings may end there or go on to the errors, and the noun of either
kind has an `s` or has none. That the words determine the counts all the same is
proved by reading them back. Every reader here is exact. It takes a text exactly
if this starts with what is written for the value that it returns, and leaves
the rest.

What is read as a number is what is written for it because a number starts with
a digit other than zero, unless it is zero. So no digits with a nonzero first one
are another way to write a number.

## Theorems

* `toDigits_ofDigitChars`: Digits that do not start with zero are those of their
  number.
* `readPositive?_eq_some_iff`, `readPlural?_eq_some_iff`: What is read is what is
  written.
* `Counts.ofChars?_eq_some_iff`: The same for all shapes of counts.
* `Counts.ofText?_text_inj`: Words determine counts, and can be read back.
-/

namespace Diagnostics

theorem afterWord?_eq_some_iff {word cs rest : List Char} :
    afterWord? word cs = some rest ↔ cs = word ++ rest := by
  induction word generalizing cs with
  | nil => simp only [afterWord?, Option.some.injEq, List.nil_append]
  | cons w word ih =>
      cases cs with
      | nil => simp only [afterWord?, reduceCtorEq, List.cons_append]
      | cons c cs =>
          rw [afterWord?, List.cons_append, List.cons.injEq]
          -- The first characters agree and the rest decides, or there is nothing to be read.
          by_cases hw : w = c
          · rw [if_pos hw, ih]
            exact (and_iff_right hw.symm).symm
          · rw [if_neg hw]
            exact iff_of_false (by simp only [reduceCtorEq, not_false_eq_true]) fun h => hw h.1.symm

/-- A digit is written for its value. -/
theorem digitChar_toNat_sub {c : Char} (h : c.isDigit = true) :
    c.toNat - '0'.toNat < 10 ∧ Nat.digitChar (c.toNat - '0'.toNat) = c := by
  rcases Char.isDigit_iff_toNat.mp h with ⟨hlow, hhigh⟩
  have hnine : '9'.toNat = '0'.toNat + 9 := rfl
  have hlt : c.toNat - '0'.toNat < 10 := by omega
  -- A character is known by its code.
  refine ⟨hlt, Char.toNat_inj.mp ?_⟩
  have hzero : '0'.toNat = 48 := rfl
  rw [Nat.toNat_digitChar_of_lt_ten hlt]
  omega

/-- Digits that do not start with zero are those that are written for their
    number. -/
theorem toDigits_ofDigitChars {digits : List Char} (hdigits : ∀ c ∈ digits, c.isDigit = true)
    (hne : digits ≠ []) (hhead : digits.head? ≠ some '0') :
    0 < Nat.ofDigitChars 10 digits 0 ∧
      Nat.toDigits 10 (Nat.ofDigitChars 10 digits 0) = digits := by
  -- From the back, since the last digit is what a number of more than one digit
  -- is cut off.
  induction digits using List.reverseRecOn with
  | nil => exact absurd rfl hne
  | append_singleton front last ih =>
      rcases digitChar_toNat_sub (hdigits last (List.mem_append_right _ List.mem_cons_self)) with
        ⟨hlt, hlast⟩
      rw [Nat.ofDigitChars_append, Nat.ofDigitChars_cons, Nat.ofDigitChars_nil]
      by_cases hfront : front = []
      · subst hfront
        -- A single digit: it is not zero, since no number starts with that.
        have hpos : last.toNat - '0'.toNat ≠ 0 := by
          intro hzero
          rw [hzero] at hlast
          exact hhead (congrArg some hlast.symm)
        rw [Nat.ofDigitChars_nil, Nat.mul_zero, Nat.zero_add, Nat.toDigits_of_lt_base hlt, hlast]
        exact ⟨Nat.pos_of_ne_zero hpos, rfl⟩
      · -- More than one: the front starts as the whole does, so it is a number by itself.
        have hhead' : front.head? ≠ some '0' := by
          rwa [List.head?_append, Option.or_of_isSome (List.isSome_head?.mpr hfront)] at hhead
        rcases ih (fun c hc => hdigits c (List.mem_append_left _ hc)) hfront hhead' with
          ⟨hpos, hwritten⟩
        rw [← Nat.toDigits_append_toDigits (by decide) hpos hlt, hwritten,
          Nat.toDigits_of_lt_base hlt, hlast]
        exact ⟨by omega, rfl⟩

/-- No positive number is written with a zero in front. -/
theorem head?_toDigits_ne_zero {n : Nat} (hpos : 0 < n) :
    (Nat.toDigits 10 n).head? ≠ some '0' := by
  induction n using Nat.strongRecOn with
  | ind n ih =>
      by_cases hlt : n < 10
      · -- One digit: it is that of the number, which is not zero.
        rw [Nat.toDigits_of_lt_base hlt, List.head?_cons]
        intro hzero
        have hvalue := congrArg Char.toNat (Option.some.inj hzero)
        rw [Nat.toNat_digitChar_of_lt_ten hlt] at hvalue
        have hcode : '0'.toNat = 48 := rfl
        omega
      · -- More than one digit: the first one is that of the number without its last.
        rw [Nat.toDigits_of_base_le (by decide) (by omega), List.head?_append,
          Option.or_of_isSome (List.isSome_head?.mpr Nat.toDigits_ne_nil)]
        exact ih (n / 10) (by omega) (by omega)

/-- A positive number is read exactly where it is written and no digit follows. -/
theorem readPositive?_eq_some_iff {cs rest : List Char} {n : Nat} :
    readPositive? cs = some (n, rest) ↔
      0 < n ∧ cs = Nat.toDigits 10 n ++ rest ∧ ∀ c ∈ rest.head?, c.isDigit = false := by
  unfold readPositive?
  constructor
  · intro h
    by_cases hbad : cs.takeWhile Char.isDigit = [] ∨ (cs.takeWhile Char.isDigit).head? = some '0'
    · rw [if_pos hbad] at h
      exact absurd h (by simp only [reduceCtorEq, not_false_eq_true])
    · rw [if_neg hbad, Option.some.injEq, Prod.mk.injEq] at h
      rcases h with ⟨rfl, rfl⟩
      rcases not_or.mp hbad with ⟨hne, hhead⟩
      -- What was taken are digits, so they are what is written for their number.
      have hdigits : ∀ c ∈ cs.takeWhile Char.isDigit, c.isDigit = true :=
        List.all_eq_true.mp List.all_takeWhile
      rcases toDigits_ofDigitChars hdigits hne hhead with ⟨hpos, hwritten⟩
      refine ⟨hpos, ?_, fun c hc => ?_⟩
      · rw [hwritten, List.takeWhile_append_dropWhile]
      · -- The digits end where the taking of them stopped.
        have hstop := List.head?_dropWhile_not Char.isDigit cs
        rw [hc] at hstop
        exact hstop
  · rintro ⟨hpos, rfl, hstop⟩
    have hdigits : ∀ c ∈ Nat.toDigits 10 n, c.isDigit = true := fun c hc =>
      Nat.isDigit_of_mem_toDigits (by decide) (Nat.le_refl 10) hc
    -- The digits of the number are taken, and then nothing more.
    have hrest : rest.takeWhile Char.isDigit = [] ∧ rest.dropWhile Char.isDigit = rest := by
      cases rest with
      | nil => exact ⟨rfl, rfl⟩
      | cons c rest =>
          have hc := hstop c rfl
          simp only [List.takeWhile_cons, List.dropWhile_cons, hc, Bool.false_eq_true, if_false,
            and_self]
    rw [List.takeWhile_append_of_pos hdigits, List.dropWhile_append_of_pos hdigits, hrest.1,
      hrest.2, List.append_nil, if_neg (not_or.mpr ⟨Nat.toDigits_ne_nil,
        head?_toDigits_ne_zero hpos⟩), Nat.ofDigitChars_ten_toDigits]

theorem toList_plural (count : Nat) (noun : String) :
    (plural count noun).toList =
      Nat.toDigits 10 count ++ (' ' :: noun.toList ++ (if count = 1 then [] else ['s'])) := by
  unfold plural
  simp only [String.toList_append, Nat.toString_eq_ofList_toDigits, String.toList_ofList]
  by_cases hone : count = 1
  · simp only [if_pos hone, String.toList_empty, List.append_nil, List.append_assoc]
    rfl
  · simp only [if_neg hone, List.append_assoc]
    rfl

/-- Behind the digits of a number it is up to the noun. -/
theorem readPlural?_toDigits_append {count : Nat} (hpos : 0 < count) (noun : String)
    (tail : List Char) :
    readPlural? noun (Nat.toDigits 10 count ++ ' ' :: tail) =
      (afterWord? (noun.toList ++ (if count = 1 then [] else ['s'])) tail).map (count, ·) := by
  -- The number ends at the blank, which is no digit.
  have hread : readPositive? (Nat.toDigits 10 count ++ ' ' :: tail) = some (count, ' ' :: tail) :=
    readPositive?_eq_some_iff.mpr ⟨hpos, rfl, fun c hc => by
      rw [← Option.some.inj hc]
      rfl⟩
  rw [readPlural?, hread]
  simp only [Option.bind_eq_bind, Option.bind_some, List.cons_append, afterWord?, if_true]
  cases afterWord? (noun.toList ++ (if count = 1 then [] else ['s'])) tail with
  | none => rfl
  | some rest => rfl

/-- A positive number is read with its noun exactly where both are written. -/
theorem readPlural?_eq_some_iff {noun : String} {cs rest : List Char} {count : Nat} :
    readPlural? noun cs = some (count, rest) ↔
      0 < count ∧ cs = (plural count noun).toList ++ rest := by
  rw [toList_plural]
  constructor
  · intro h
    rw [readPlural?] at h
    simp only [Option.bind_eq_bind, Option.bind_eq_some_iff, Option.pure_def,
      Option.some.injEq] at h
    -- Each of the two readers is exact, and the second one knows the number.
    rcases h with ⟨⟨n, tail⟩, hnumber, rest', hnoun, hsame⟩
    dsimp only at hnoun hsame
    rw [Prod.mk.injEq] at hsame
    rcases hsame with ⟨rfl, rfl⟩
    rcases readPositive?_eq_some_iff.mp hnumber with ⟨hpos, rfl, -⟩
    rw [afterWord?_eq_some_iff.mp hnoun]
    exact ⟨hpos, (List.append_assoc _ _ _).symm⟩
  · rintro ⟨hpos, rfl⟩
    rw [List.append_assoc, List.cons_append, List.cons_append, readPlural?_toDigits_append hpos,
      afterWord?_eq_some_iff.mpr rfl, Option.map_some]

theorem onlyPlural?_eq_some_iff {noun : String} {cs : List Char} {count : Nat} :
    onlyPlural? noun cs = some count ↔ 0 < count ∧ cs = (plural count noun).toList := by
  have hiff : readPlural? noun cs = some (count, []) ↔
      0 < count ∧ cs = (plural count noun).toList := by
    rw [readPlural?_eq_some_iff, List.append_nil]
  -- To be read alone is to be read with nothing left over.
  rw [← hiff]
  unfold onlyPlural?
  rcases readPlural? noun cs with _ | ⟨n, rest⟩
  · simp only [Option.bind_eq_bind, Option.bind_none, reduceCtorEq]
  · simp only [Option.bind_eq_bind, Option.bind_some, Option.ite_none_right_eq_some,
      Option.some.injEq, Prod.mk.injEq]
    exact and_comm

/-- What starts with a number does not say that there are no errors. -/
theorem ne_noErrors_append_plural (count : Nat) (noun : String) (rest : List Char) :
    (plural count noun).toList ++ rest ≠ "no errors".toList := by
  intro h
  -- The two would start with the same character, which is no digit.
  have hdigits : (Nat.toDigits 10 count).head? = some 'n' := by
    rw [toList_plural, List.append_assoc] at h
    have hhead := congrArg List.head? h
    rwa [List.head?_append, Option.or_of_isSome (List.isSome_head?.mpr Nat.toDigits_ne_nil)]
      at hhead
  exact absurd (Nat.isDigit_of_mem_toDigits (by decide) (Nat.le_refl 10)
    (List.mem_of_head? hdigits)) (by decide)

/-- A number of errors is not read as one of warnings. -/
theorem readPlural?_warning_errors {errors : Nat} (hpos : 0 < errors) :
    readPlural? "warning" (plural errors "error").toList = none := by
  rw [toList_plural, List.cons_append, readPlural?_toDigits_append hpos]
  rfl

namespace Counts

/-- The words for counts by their shape. -/
theorem text_of_warnings {warnings : Nat} (hpos : 0 < warnings) :
    text { errors := 0, warnings } = plural warnings "warning" := by
  cases warnings with
  | zero => exact absurd hpos (Nat.lt_irrefl 0)
  | succ n => rfl

theorem text_of_errors {errors : Nat} (hpos : 0 < errors) :
    text { errors, warnings := 0 } = plural errors "error" := by
  cases errors with
  | zero => exact absurd hpos (Nat.lt_irrefl 0)
  | succ n => rfl

theorem text_of_both {errors warnings : Nat} (herrors : 0 < errors) (hwarnings : 0 < warnings) :
    text { errors, warnings } = plural warnings "warning" ++ " and " ++ plural errors "error" := by
  cases errors with
  | zero => exact absurd herrors (Nat.lt_irrefl 0)
  | succ m =>
      cases warnings with
      | zero => exact absurd hwarnings (Nat.lt_irrefl 0)
      | succ n => rfl

/-- What is written for counts is read as them. -/
theorem ofChars?_text (counts : Counts) : ofChars? counts.text.toList = some counts := by
  rcases counts with ⟨errors, warnings⟩
  unfold ofChars?
  -- By the shapes that the words have. With warnings it is the first reading that
  -- finds its noun, and with errors alone it is the second.
  rcases Nat.eq_zero_or_pos warnings with rfl | hwarnings
  · rcases Nat.eq_zero_or_pos errors with rfl | herrors
    · rfl
    · have hne := ne_noErrors_append_plural errors "error" []
      rw [List.append_nil] at hne
      rw [text_of_errors herrors, if_neg hne, readPlural?_warning_errors herrors,
        onlyPlural?_eq_some_iff.mpr ⟨herrors, rfl⟩]
      rfl
  · rcases Nat.eq_zero_or_pos errors with rfl | herrors
    · have hne := ne_noErrors_append_plural warnings "warning" []
      rw [List.append_nil] at hne
      rw [text_of_warnings hwarnings, if_neg hne,
        readPlural?_eq_some_iff.mpr ⟨hwarnings, (List.append_nil _).symm⟩]
      rfl
    · rw [text_of_both herrors hwarnings, String.toList_append, String.toList_append,
        List.append_assoc, if_neg (ne_noErrors_append_plural _ _ _),
        readPlural?_eq_some_iff.mpr ⟨hwarnings, rfl⟩]
      dsimp only
      rw [if_neg (List.append_ne_nil_of_left_ne_nil (by decide) _),
        afterWord?_eq_some_iff.mpr rfl, Option.bind_some,
        onlyPlural?_eq_some_iff.mpr ⟨herrors, rfl⟩, Option.map_some]

/-- What is read as counts is what is written for them. -/
theorem eq_text_of_ofChars? {cs : List Char} {counts : Counts}
    (h : ofChars? cs = some counts) : cs = counts.text.toList := by
  unfold ofChars? at h
  by_cases hnone : cs = "no errors".toList
  · rw [if_pos hnone, Option.some.injEq] at h
    rw [hnone, ← h]
    rfl
  · rw [if_neg hnone] at h
    -- Without warnings it is errors alone; with them, nothing may follow or errors do.
    rcases hread : readPlural? "warning" cs with _ | ⟨warnings, rest⟩
    · rw [hread] at h
      -- No number of warnings: the whole is a number of errors.
      rcases Option.map_eq_some_iff.mp h with ⟨errors, herrors, rfl⟩
      rcases onlyPlural?_eq_some_iff.mp herrors with ⟨hpos, rfl⟩
      rw [text_of_errors hpos]
    · rw [hread] at h
      dsimp only at h
      rcases readPlural?_eq_some_iff.mp hread with ⟨hwarnings, rfl⟩
      by_cases hrest : rest = []
      · -- Nothing behind the warnings.
        rw [if_pos hrest, Option.some.injEq] at h
        rw [← h, hrest, text_of_warnings hwarnings, List.append_nil]
      · -- Something behind them, which is the word between and a number of errors.
        rw [if_neg hrest] at h
        rcases Option.bind_eq_some_iff.mp h with ⟨tail, hand, htail⟩
        rcases Option.map_eq_some_iff.mp htail with ⟨errors, herrors, rfl⟩
        rcases onlyPlural?_eq_some_iff.mp herrors with ⟨hpos, rfl⟩
        rw [afterWord?_eq_some_iff.mp hand, text_of_both hpos hwarnings, String.toList_append,
          String.toList_append, List.append_assoc]

theorem ofText?_eq_some_iff {text : String} {counts : Counts} :
    ofText? text = some counts ↔ text = counts.text := by
  constructor
  · intro h
    exact String.toList_inj.mp (eq_text_of_ofChars? h)
  · rintro rfl
    exact ofChars?_text counts

/-- Words determine counts. No two counts are worded alike, and the words of any
    are read as these and no others; what is not the words for some counts is not
    read at all. -/
theorem ofText?_text_inj (a b : Counts) :
    (a.text = b.text ↔ a = b) ∧ ∀ text, ofText? text = some a ↔ text = a.text := by
  refine ⟨⟨fun h => ?_, congrArg text⟩, fun text => ofText?_eq_some_iff⟩
  have hread : ofText? b.text = some a := ofText?_eq_some_iff.mpr h.symm
  rw [ofText?_eq_some_iff.mpr rfl] at hread
  exact (Option.some.inj hread).symm

/-- Nearly the words for one error, but no counts are worded so. -/
example : ofText? "1 errors" = none ∧ ofText? "01 error" = none := by decide

end Counts

end Diagnostics
