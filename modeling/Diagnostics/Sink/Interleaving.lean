/-!
# Interleavings

Several lists merged into one, each kept in its own order. This is all that can
be said of the order in which the messages of several producers arrive at a
sink.

The lists are taken apart from the front: an interleaving starts with the head
of one of them and goes on as an interleaving of what is then left. Stated this
way, one step of a run of producers is one step of the relation.

## Main definitions

* `Interleaves`: A list that merges several lists.
-/

namespace Diagnostics

/-- The list is made of the given lists, each in its own order. -/
inductive Interleaves {α : Type} : List (List α) → List α → Prop
  | done {lists : List (List α)} (h : ∀ list ∈ lists, list = []) : Interleaves lists []
  | take {left right : List (List α)} {x : α} {rest merged : List α}
      (h : Interleaves (left ++ rest :: right) merged) :
      Interleaves (left ++ (x :: rest) :: right) (x :: merged)

end Diagnostics
