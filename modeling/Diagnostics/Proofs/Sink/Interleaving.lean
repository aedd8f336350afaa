import Diagnostics.Sink.Interleaving

/-!
# Growing an Interleaving

`Interleaves` takes its lists apart from the front. A run grows them at the
end: each accepted message is the last of its producer so far, and the last of
all. `Interleaves.concat` says that this is the same thing.

What does not depend on how the lists are merged is what does not depend on
order at all, since every interleaving rearranges the same elements.

## Theorems

* `Interleaves.concat`: An interleaving grows at the end.
* `Interleaves.perm_flatten`: It has the elements of its lists.
* `Interleaves.concat_map`, `Interleaves.of_map_eq`: The same for lists that
  belong to the parties of a run, when one of them moves.
-/

namespace Diagnostics

/-- Two lists of which each has a marked place are the same list only if one
    place comes before the other, or they are the same place. -/
theorem append_cons_cases {α : Type} {left right front back : List α} {a b : α}
    (h : left ++ a :: right = front ++ b :: back) :
    (∃ between, front = left ++ a :: between ∧ right = between ++ b :: back) ∨
      (left = front ∧ a = b ∧ right = back) ∨
      ∃ between, left = front ++ b :: between ∧ back = between ++ a :: right := by
  -- One of the fronts is a start of the other, and they may be equal.
  rcases List.append_eq_append_iff.mp h with ⟨mid, rfl, hrest⟩ | ⟨mid, rfl, hrest⟩
  · rcases List.cons_eq_append_iff.mp hrest with ⟨rfl, hsame⟩ | ⟨between, rfl, hright⟩
    · rw [List.cons.injEq] at hsame
      exact Or.inr (Or.inl ⟨(List.append_nil left).symm, hsame.1.symm, hsame.2.symm⟩)
    · exact Or.inl ⟨between, rfl, hright⟩
  · rcases List.cons_eq_append_iff.mp hrest with ⟨rfl, hsame⟩ | ⟨between, rfl, hback⟩
    · rw [List.cons.injEq] at hsame
      exact Or.inr (Or.inl ⟨List.append_nil front, hsame.1, hsame.2⟩)
    · exact Or.inr (Or.inr ⟨between, rfl, hback⟩)

namespace Interleaves

variable {α : Type} {lists left right : List (List α)} {list merged : List α}

/-- What comes last in one of the lists may come last of all. -/
theorem concat (h : Interleaves (left ++ list :: right) merged) (x : α) :
    Interleaves (left ++ (list ++ [x]) :: right) (merged ++ [x]) := by
  -- On the merging: the list that grows is somewhere among those that are
  -- taken apart, at, before or after the one that the step takes from.
  generalize hlists : left ++ list :: right = lists at h
  induction h generalizing left list right with
  | done hempty =>
      have hempty' : ∀ other ∈ left ++ [] :: right, other = [] := by
        intro other hmem
        refine hempty other ?_
        rwa [← hlists, hempty list (hlists ▸ List.mem_append_right _ List.mem_cons_self)]
      rw [hempty list (hlists ▸ List.mem_append_right _ List.mem_cons_self)]
      exact .take (.done hempty')
  | @take front back y rest merged hrest ih =>
      rcases append_cons_cases hlists with
        ⟨between, rfl, rfl⟩ | ⟨rfl, rfl, rfl⟩ | ⟨between, rfl, rfl⟩
      · have hgrown : Interleaves (left ++ (list ++ [x]) :: (between ++ rest :: back))
            (merged ++ [x]) := ih (by rw [List.append_assoc, List.cons_append])
        have htaken : Interleaves ((left ++ (list ++ [x]) :: between) ++ (y :: rest) :: back)
            (y :: (merged ++ [x])) :=
          .take (by rwa [List.append_assoc, List.cons_append])
        rwa [List.append_assoc, List.cons_append] at htaken
      · exact .take (ih rfl)
      · have hgrown : Interleaves ((front ++ rest :: between) ++ (list ++ [x]) :: right)
            (merged ++ [x]) := ih (by rw [List.append_assoc, List.cons_append])
        rw [List.append_assoc, List.cons_append] at hgrown ⊢
        exact .take hgrown

theorem perm_flatten (h : Interleaves lists merged) : merged.Perm lists.flatten := by
  induction h with
  | @done lists hempty =>
      rw [List.flatten_eq_nil_iff.mpr hempty]
  | @take front back x rest merged _ ih =>
      rw [List.flatten_append, List.flatten_cons] at ih ⊢
      exact (ih.cons x).trans List.perm_middle.symm

section Map

variable {α β : Type} {f : α → List β} {xs left right : List α} {a b : α} {merged : List β}

theorem map_nil (h : ∀ x ∈ xs, f x = []) : Interleaves (xs.map f) [] := by
  refine .done fun list hmem => ?_
  rcases List.mem_map.mp hmem with ⟨x, hx, rfl⟩
  exact h x hx

/-- The list that belongs to one of several things grows at its end. -/
theorem concat_map (h : Interleaves ((left ++ a :: right).map f) merged) {x : β}
    (hgrown : f b = f a ++ [x]) : Interleaves ((left ++ b :: right).map f) (merged ++ [x]) := by
  rw [List.map_append, List.map_cons] at h ⊢
  rw [hgrown]
  exact h.concat x

/-- One of them changes, and its list does not. -/
theorem of_map_eq (h : Interleaves ((left ++ a :: right).map f) merged) (hsame : f b = f a) :
    Interleaves ((left ++ b :: right).map f) merged := by
  rw [List.map_append, List.map_cons] at h ⊢
  rwa [hsame]

end Map

end Interleaves

end Diagnostics
