import Diagnostics.Counts

/-!
# Counts Read Back

The words for counts can be read back. Each number is followed by its noun, and
the noun by an `s` unless the number is one, so a number is read together with
its noun and nothing is left open. What is not exactly the words for some
counts is refused. In particular no number in such words is zero, or starts
with a zero.

## Main definitions

* `readPositive?`: A positive number, and what follows its digits.
* `readPlural?`: A positive number with a given noun, and what follows it.
* `onlyPlural?`: The same with nothing behind it.
* `Counts.ofText?`: The counts that a text gives in words.
-/

namespace Diagnostics

/-- The rest of a text after a word that it starts with. -/
def afterWord? : List Char → List Char → Option (List Char)
  | [], rest => some rest
  | _ :: _, [] => none
  | w :: word, c :: rest => if w = c then afterWord? word rest else none

/-- A positive number at the start of a text, and what follows its digits. It has
    digits, and the first one is not a zero. -/
def readPositive? (cs : List Char) : Option (Nat × List Char) :=
  let digits := cs.takeWhile Char.isDigit
  if digits = [] ∨ digits.head? = some '0' then none
  else some (Nat.ofDigitChars 10 digits 0, cs.dropWhile Char.isDigit)

/-- A positive number with a given noun at the start of a text, and what follows
    it. -/
def readPlural? (noun : String) (cs : List Char) : Option (Nat × List Char) := do
  let (count, tail) ← readPositive? cs
  let rest ← afterWord? (' ' :: noun.toList ++ (if count = 1 then [] else ['s'])) tail
  return (count, rest)

/-- A positive number with a given noun, and nothing else. -/
def onlyPlural? (noun : String) (cs : List Char) : Option Nat := do
  let (count, rest) ← readPlural? noun cs
  if rest = [] then some count else none

namespace Counts

/-- The counts that a text gives in words. -/
def ofChars? (cs : List Char) : Option Counts :=
  if cs = "no errors".toList then some {}
  else
    match readPlural? "warning" cs with
    | none => (onlyPlural? "error" cs).map fun errors => { errors, warnings := 0 }
    | some (warnings, rest) =>
      if rest = [] then some { errors := 0, warnings }
      else
        (afterWord? " and ".toList rest).bind fun rest =>
          (onlyPlural? "error" rest).map fun errors => { errors, warnings }

/-- The counts that a text gives in words. -/
def ofText? (text : String) : Option Counts :=
  ofChars? text.toList

end Counts

end Diagnostics
