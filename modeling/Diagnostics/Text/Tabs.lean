/-!
# Tab Expansion

A tab stands for the blanks up to the next tab stop, so its width depends on
everything before it on the line. Columns count characters, whatever their
length in bytes.

Two passes share the running column. `expandTabs` writes the blanks out;
`expandedWidth` only measures, and is also applied to texts that run past the
end of a line, where nothing is displayed. A boundary character counts as one
column there. `length_expandFrom` is the reason why the two agree.

## Main definitions

* `tabStop`: The distance between two tab stops.
* `tabWidth`: The blanks that a tab at a column stands for.
* `expandFrom`: Expansion of a text that starts at a given column.
* `expandTabs`: Expansion of a text that starts a line.
* `nextColumn`: The column after a character.
* `expandedWidth`: The column reached after a text that starts a line.

## Theorems

* `length_expandFrom`: Expansion is as wide as the measuring pass says.
-/

namespace Diagnostics

namespace Text

/-- The distance between two tab stops. -/
def tabStop : Nat := 2

/-- The blanks that a tab at a column stands for: those up to the next tab
    stop, and never none. -/
def tabWidth (column : Nat) : Nat :=
  tabStop - column % tabStop

/-- Write a text that starts at `column` with its tabs as blanks. -/
def expandFrom : Nat → List Char → List Char
  | _, [] => []
  | column, c :: cs =>
    if c = '\t' then
      List.replicate (tabWidth column) ' ' ++ expandFrom (column + tabWidth column) cs
    else
      c :: expandFrom (column + 1) cs

/-- Write a text that starts a line with its tabs as blanks. A text without a
    tab needs no pass. -/
def expandTabs (cs : List Char) : List Char :=
  if cs.contains '\t' then expandFrom 0 cs else cs

/-- The column after a character that stands at `column`. -/
def nextColumn (column : Nat) (c : Char) : Nat :=
  if c = '\t' then column + tabWidth column else column + 1

/-- The column reached after a text that starts a line. -/
def expandedWidth (cs : List Char) : Nat :=
  cs.foldl nextColumn 0

/-- Expanding from a column takes as many characters as the measuring pass
    moves the column. -/
theorem length_expandFrom (column : Nat) (cs : List Char) :
    column + (expandFrom column cs).length = cs.foldl nextColumn column := by
  induction cs generalizing column with
  | nil => rfl
  | cons c cs ih =>
    rw [expandFrom, List.foldl_cons, nextColumn]
    split
    · rw [List.length_append, List.length_replicate, ← Nat.add_assoc, ih]
    · rw [List.length_cons, ← ih]
      omega

end Text

end Diagnostics
