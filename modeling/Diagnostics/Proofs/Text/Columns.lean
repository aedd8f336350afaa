import Diagnostics.Text.Tabs

/-!
# Columns of a Prefix

A tab's width depends on everything before it on the line and on nothing
after it, so expansion never takes back what it has written. Cutting a text
and expanding the pieces one after the other, the second from the column the
first one reached, is expanding the text at once.

The excerpt relies on this three times over. It expands the whole line and
measures two pieces of it, and the measurements are columns of the expanded
line only because the expansion of a piece stands at the front of the
expansion of the whole.

The second measurement may run past the end of the line. Nothing is displayed
there, and all that is needed of it is that it does not fall short of the
line: every character moves the column to the right.

## Theorems

* `expandFrom_append`: Expansion goes on from the column it reached.
* `expandTabs_eq_expandFrom`: The shortcut for a text without tabs is no
  exception.
* `length_expandTabs`: An expanded text is as wide as it measures.
* `take_expandTabs_append`: A piece is found at the front of the expanded
  text by measuring it.
* `expandedWidth_le_append`: Measuring on never moves the column back.
* `expandedWidth_eq_append_iff`: Only nothing has no width.
-/

namespace Diagnostics

namespace Text

theorem expandFrom_append (column : Nat) (a b : List Char) :
    expandFrom column (a ++ b)
      = expandFrom column a ++ expandFrom (a.foldl nextColumn column) b := by
  -- For every column at once, since each character hands on the column that
  -- it reaches.
  induction a generalizing column with
  | nil => rfl
  | cons c a ih =>
      rw [List.cons_append, expandFrom, expandFrom, List.foldl_cons, nextColumn]
      by_cases hc : c = '\t'
      · rw [if_pos hc, if_pos hc, if_pos hc, ih, List.append_assoc]
      · rw [if_neg hc, if_neg hc, if_neg hc, ih, List.cons_append]

/-- A text without tabs expands to itself, from any column. -/
theorem expandFrom_of_not_mem (column : Nat) (cs : List Char) (h : '\t' ∉ cs) :
    expandFrom column cs = cs := by
  induction cs generalizing column with
  | nil => rfl
  | cons c cs ih =>
      have hc : ¬ (c = '\t') := fun hc => h (by rw [hc]; exact List.mem_cons_self)
      rw [expandFrom, if_neg hc, ih _ (fun hmem => h (List.mem_cons_of_mem c hmem))]

theorem expandTabs_eq_expandFrom (cs : List Char) : expandTabs cs = expandFrom 0 cs := by
  unfold expandTabs
  by_cases h : '\t' ∈ cs
  · rw [if_pos (List.contains_iff_mem.mpr h)]
  · rw [if_neg (fun hc => h (List.contains_iff_mem.mp hc)), expandFrom_of_not_mem 0 cs h]

theorem length_expandTabs (cs : List Char) : (expandTabs cs).length = expandedWidth cs := by
  have h := length_expandFrom 0 cs
  rw [Nat.zero_add] at h
  rw [expandTabs_eq_expandFrom, h, expandedWidth]

/-- The expansion of a text starts with the expansion of each text it starts
    with. -/
theorem expandTabs_append (a b : List Char) :
    expandTabs (a ++ b) = expandTabs a ++ expandFrom (expandedWidth a) b := by
  rw [expandTabs_eq_expandFrom, expandTabs_eq_expandFrom, expandFrom_append, expandedWidth]

theorem take_expandTabs_append (a b : List Char) :
    (expandTabs (a ++ b)).take (expandedWidth a) = expandTabs a := by
  rw [expandTabs_append, ← length_expandTabs, List.take_left]

/-- A character moves the column to the right, a tab by up to a whole stop. -/
theorem lt_nextColumn (column : Nat) (c : Char) : column < nextColumn column c := by
  unfold nextColumn tabWidth tabStop
  by_cases hc : c = '\t'
  · rw [if_pos hc]
    omega
  · rw [if_neg hc]
    omega

/-- A text moves the column by at least a column for each character. -/
theorem add_length_le_foldl_nextColumn (column : Nat) (cs : List Char) :
    column + cs.length ≤ cs.foldl nextColumn column := by
  induction cs generalizing column with
  | nil => exact Nat.le_refl _
  | cons c cs ih =>
      have hstep := lt_nextColumn column c
      have hrest := ih (nextColumn column c)
      rw [List.foldl_cons, List.length_cons]
      omega

theorem expandedWidth_le_append (a b : List Char) :
    expandedWidth a ≤ expandedWidth (a ++ b) := by
  rw [expandedWidth, expandedWidth, List.foldl_append]
  have h := add_length_le_foldl_nextColumn (a.foldl nextColumn 0) b
  omega

/-- What is put behind a text moves the column, unless it is nothing. -/
theorem expandedWidth_eq_append_iff (a b : List Char) :
    expandedWidth a = expandedWidth (a ++ b) ↔ b = [] := by
  constructor
  · intro h
    rw [expandedWidth, expandedWidth, List.foldl_append] at h
    -- The columns of what is behind are at least as many as its characters, so there are none.
    have hle := add_length_le_foldl_nextColumn (a.foldl nextColumn 0) b
    exact List.length_eq_zero_iff.mp (by omega)
  · rintro rfl
    rw [List.append_nil]

theorem expandedWidth_pos_iff (cs : List Char) : 0 < expandedWidth cs ↔ cs ≠ [] := by
  have h := expandedWidth_eq_append_iff [] cs
  rw [List.nil_append] at h
  rw [Nat.pos_iff_ne_zero, ne_eq, ne_eq, ← h]
  exact not_congr eq_comm

end Text

end Diagnostics
