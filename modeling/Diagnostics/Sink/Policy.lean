/-!
# Sink Policies

Every sink keeps every message it accepts. A policy says what else it does with
them, by three independent switches. A sink for people has all three on, and
one that only collects has all of them off.

As numbers, policies are sets of three bits; a number's other bits mean
nothing.

## Main definitions

* `Policy`: The three switches.
* `Policy.interactive`, `Policy.deferred`: The two policies in use.
* `Policy.ofBits`, `Policy.bits`: Policies as numbers.
* `Policy.contains`, `Policy.union`, `Policy.isEmpty`: Policies as sets.
* `Policy.text`: A policy as it is named in the journal.
-/

namespace Diagnostics

/-- What a sink does with messages besides keeping them. -/
structure Policy where
  /-- Count and print each message as it arrives. -/
  prints : Bool
  /-- Stop printing at the error limit. -/
  limits : Bool
  /-- End with a summary of the counts. -/
  summarizes : Bool
deriving DecidableEq, Repr

namespace Policy

/-- Print as messages arrive, keep to the error limit, end with a summary. -/
def interactive : Policy :=
  { prints := true, limits := true, summarizes := true }

/-- Do nothing but keep, for messages that are replayed elsewhere. -/
def deferred : Policy :=
  { prints := false, limits := false, summarizes := false }

/-- The policy that a number stands for. -/
def ofBits (n : Nat) : Policy :=
  { prints := n.testBit 0, limits := n.testBit 1, summarizes := n.testBit 2 }

/-- The number that stands for a policy. -/
def bits (policy : Policy) : Nat :=
  policy.prints.toNat + 2 * policy.limits.toNat + 4 * policy.summarizes.toNat

/-- Whether a policy has every switch on that another has on. -/
def contains (a b : Policy) : Bool :=
  (a.prints || !b.prints) && (a.limits || !b.limits) && (a.summarizes || !b.summarizes)

/-- A policy with the switches of two. -/
def union (a b : Policy) : Policy :=
  { prints := a.prints || b.prints
    limits := a.limits || b.limits
    summarizes := a.summarizes || b.summarizes }

/-- Whether all switches are off. -/
def isEmpty (policy : Policy) : Bool :=
  !policy.prints && !policy.limits && !policy.summarizes

/-- The names of the switches that are on. -/
def names (policy : Policy) : List String :=
  (if policy.prints then ["PRINT_IMMEDIATELY"] else []) ++
  (if policy.limits then ["ENFORCE_LIMIT"] else []) ++
  (if policy.summarizes then ["PRINT_SUMMARY"] else [])

/-- A policy as it is named in the journal. -/
def text (policy : Policy) : String :=
  "SinkPolicy(" ++
    (if policy.isEmpty then "0x0" else String.intercalate " | " policy.names) ++ ")"

end Policy

end Diagnostics
