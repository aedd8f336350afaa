import Diagnostics.Text.Lines

/-!
# A Text as Its Lines

The same text seen all at once. `splitLines` cuts a text at its boundaries and
keeps them, so that nothing of the text is lost and the place where a line
begins is the length of everything before it. There is always a last line,
which has no boundary and may be empty.

`unify` takes the other way to the same lines: it turns every boundary into a
line feed, pairs first, after which lines are what stands between line feeds.

Neither is how a position is found. They say what lines are; `position` finds
where in them a place lies from the text before it alone.

## Main definitions

* `Line`: A line and the boundary that ends it.
* `splitLines`: The lines of a text.
* `Line.startOf`: The offset at which a line begins.
* `unify`: A text with every boundary as a line feed.

## Theorems

* `flatMap_splitLines`: The lines with their boundaries are the text.
-/

namespace Diagnostics

namespace Text

/-- A line and the boundary that ends it, which the last line has not. -/
structure Line where
  text : List Char
  boundary : List Char
deriving DecidableEq, Repr

namespace Line

/-- A line with the boundary that ends it, as the text has it. -/
def chars (line : Line) : List Char :=
  line.text ++ line.boundary

/-- The offset at which the line of the given number, from zero, begins. -/
def startOf (lines : List Line) (i : Nat) : Nat :=
  byteLength ((lines.take i).flatMap chars)

/-- Put a character in front of the first line. -/
def consFirst (c : Char) : List Line → List Line
  | [] => [⟨[c], []⟩]
  | line :: rest => ⟨c :: line.text, line.boundary⟩ :: rest

end Line

/-- The lines of a text. A carriage return with its line feed is one boundary. -/
def splitLines : List Char → List Line
  | [] => [⟨[], []⟩]
  | '\r' :: '\n' :: rest => ⟨[], ['\r', '\n']⟩ :: splitLines rest
  | c :: rest =>
    if isBoundary c then ⟨[], [c]⟩ :: splitLines rest
    else Line.consFirst c (splitLines rest)

/-- A text with the line feed alone for each pair of carriage return and line
    feed. -/
def joinPairs : List Char → List Char
  | [] => []
  | '\r' :: '\n' :: rest => '\n' :: joinPairs rest
  | c :: rest => c :: joinPairs rest

/-- A text with every boundary as a line feed, pairs first. -/
def unify (cs : List Char) : List Char :=
  (joinPairs cs).map fun c => if isBoundary c then '\n' else c

theorem flatMap_consFirst (c : Char) (lines : List Line) :
    (Line.consFirst c lines).flatMap Line.chars = c :: lines.flatMap Line.chars := by
  cases lines <;> rfl

theorem flatMap_splitLines (cs : List Char) : (splitLines cs).flatMap Line.chars = cs := by
  -- Each case of the splitting puts what it has taken in front of the rest.
  fun_induction splitLines cs with
  | case1 => rfl
  | case2 rest ih =>
      rw [List.flatMap_cons, ih]
      rfl
  | case3 c rest _ _ ih =>
      rw [List.flatMap_cons, ih]
      rfl
  | case4 c rest _ _ ih => rw [flatMap_consFirst, ih]

end Text

end Diagnostics
