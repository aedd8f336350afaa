import Diagnostics.Severity

/-!
# Counts

How many messages of each kind were considered for printing, and the words for
it that end a run. Warnings come first in the words. Where there are none of
one kind that kind is not mentioned, and where there are none at all the words
speak of errors alone.

## Main definitions

* `plural`: A number with its noun.
* `Counts`: Numbers of errors and warnings.
* `Counts.add`: The counts after one more message.
* `Counts.isEmpty`: Whether nothing was counted.
* `Counts.text`: The counts in words.
-/

namespace Diagnostics

/-- A number with its noun, which takes an `s` unless the number is one. -/
def plural (count : Nat) (noun : String) : String :=
  toString count ++ " " ++ noun ++ (if count = 1 then "" else "s")

/-- Numbers of errors and warnings. -/
structure Counts where
  errors : Nat := 0
  warnings : Nat := 0
deriving DecidableEq, Repr

namespace Counts

/-- The counts after one more message of a kind. -/
def add (counts : Counts) : Kind → Counts
  | .error => { counts with errors := counts.errors + 1 }
  | .warning => { counts with warnings := counts.warnings + 1 }

/-- Whether nothing was counted of either kind. -/
def isEmpty (counts : Counts) : Bool :=
  counts.errors == 0 && counts.warnings == 0

/-- The counts in words, as a summary has them. -/
def text (counts : Counts) : String :=
  match counts.errors, counts.warnings with
  | 0, 0 => "no errors"
  | 0, warnings => plural warnings "warning"
  | errors, 0 => plural errors "error"
  | errors, warnings => plural warnings "warning" ++ " and " ++ plural errors "error"

end Counts

end Diagnostics
