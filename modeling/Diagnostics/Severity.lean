/-!
# Severity

A message is an error or a warning, and a sink prints the kinds that reach its
level. The levels form a chain, of which the two lowest let everything through;
they differ only in what they say about intent, and both ask for a summary at
the end.

## Main definitions

* `Kind`: Error or warning.
* `Level`: How severe a message has to be to be printed.
* `Kind.level`: The highest level at which a kind is still printed.
* `Level.admits`: Whether a level lets a kind through.
* `Level.summarizes`: Whether a level asks for a summary.

## Theorems

* `Level.admits_error`: Every level lets errors through.
-/

namespace Diagnostics

/-- Error or warning. -/
inductive Kind
  /-- A definite problem. -/
  | error
  /-- A potential problem. -/
  | warning
deriving DecidableEq, Repr

/-- How severe a message has to be to be printed, from everything to errors
    alone. -/
inductive Level
  | none
  | info
  | warning
  | error
deriving DecidableEq, Repr

namespace Level

/-- The place of a level in the chain, from the bottom. -/
def rank : Level → Nat
  | .none => 0
  | .info => 1
  | .warning => 2
  | .error => 3

/-- Levels are ordered by their places in the chain, the stricter ones above. -/
instance : LE Level where
  le a b := a.rank ≤ b.rank

/-- The strict order of the same places. -/
instance : LT Level where
  lt a b := a.rank < b.rank

/-- The order of levels can be decided. -/
instance (a b : Level) : Decidable (a ≤ b) :=
  inferInstanceAs (Decidable (a.rank ≤ b.rank))

/-- So can the strict order. -/
instance (a b : Level) : Decidable (a < b) :=
  inferInstanceAs (Decidable (a.rank < b.rank))

/-- The comparison that belongs to the order. -/
instance : Ord Level where
  compare a b := compare a.rank b.rank

theorem le_iff_rank_le {a b : Level} : a ≤ b ↔ a.rank ≤ b.rank := Iff.rfl

end Level

namespace Kind

/-- The word in front of a message. -/
def label : Kind → String
  | .error => "error"
  | .warning => "warning"

/-- The highest level at which a kind is still printed. -/
def level : Kind → Level
  | .error => .error
  | .warning => .warning

end Kind

namespace Level

/-- Whether a level lets a kind through. -/
def admits (threshold : Level) (kind : Kind) : Bool :=
  decide (threshold ≤ kind.level)

/-- Whether a level asks for a summary, as the two lowest do. -/
def summarizes (threshold : Level) : Bool :=
  decide (threshold ≤ .info)

/-- Every level lets errors through. -/
theorem admits_error (threshold : Level) : threshold.admits .error = true := by
  cases threshold <;> decide

end Level

end Diagnostics
