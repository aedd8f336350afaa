import Diagnostics.Text.Offset

/-!
# Lines of a Text

Four characters end a line: line feed, carriage return, and the line and
paragraph separators. A carriage return followed by a line feed ends one line,
not two.

Where a place lies is computed from the text before it alone, by one pass from
left to right. `Cursor` is the state of that pass. It has to remember only one
thing about the character just read, whether it was a carriage return, because
a line feed after one completes no further line. The line feed still moves the
start of the current line: the byte between the two belongs to neither line.

Because the pass is a fold, reading two texts in a row is reading their
concatenation, which is how facts about longer prefixes come from facts about
shorter ones.

## Main definitions

* `isBoundary`: The characters that end a line.
* `Cursor`: The state of a pass over a text.
* `Position`: Completed lines, column, and start of the current line.
* `position`: Where the place after a text lies.
* `lineText`: The part of a text before its first boundary.

## Theorems

* `Cursor.offset_read`: The pass counts every byte it reads.
* `Cursor.read_append`: Reading in two goes is reading at once.
-/

namespace Diagnostics

namespace Text

/-- The four characters that end a line. -/
def isBoundary (c : Char) : Bool :=
  c == '\n' || c == '\r' || c == '\u2028' || c == '\u2029'

/-- The state of a pass over a text, up to some place. -/
structure Cursor where
  offset : Nat := 0
  lineCount : Nat := 0
  /-- Offset just after the last boundary read. -/
  lineStart : Nat := 0
  /-- Whether the last character read was a carriage return. -/
  afterReturn : Bool := false
deriving DecidableEq, Repr

namespace Cursor

/-- Read one character. A boundary starts a new line after itself, and
    completes the current one unless it is the second half of a pair. -/
def advance (cursor : Cursor) (c : Char) : Cursor :=
  let offset := cursor.offset + c.utf8Size
  if isBoundary c then
    { offset
      lineCount :=
        if c == '\n' && cursor.afterReturn then cursor.lineCount else cursor.lineCount + 1
      lineStart := offset
      afterReturn := c == '\r' }
  else
    { cursor with offset, afterReturn := false }

/-- Read a text, one character after the other. -/
def read (cursor : Cursor) (cs : List Char) : Cursor :=
  cs.foldl advance cursor

theorem read_append (cursor : Cursor) (a b : List Char) :
    cursor.read (a ++ b) = (cursor.read a).read b :=
  List.foldl_append

theorem offset_advance (cursor : Cursor) (c : Char) :
    (cursor.advance c).offset = cursor.offset + c.utf8Size := by
  unfold advance
  cases isBoundary c <;> rfl

theorem offset_read (cursor : Cursor) (cs : List Char) :
    (cursor.read cs).offset = cursor.offset + byteLength cs := by
  induction cs generalizing cursor with
  | nil => rfl
  | cons c cs ih =>
    rw [read, List.foldl_cons, ← read, ih, offset_advance, byteLength_cons]
    omega

end Cursor

/-- Where a place in a text lies. -/
structure Position where
  lineCount : Nat
  /-- Bytes between the start of the line and the place. -/
  column : Nat
  lineStart : Nat
deriving DecidableEq, Repr

/-- Where the place just after the given text lies. -/
def position (before : List Char) : Position :=
  let cursor := ({} : Cursor).read before
  { lineCount := cursor.lineCount
    column := cursor.offset - cursor.lineStart
    lineStart := cursor.lineStart }

/-- The part of a text before its first boundary. -/
def lineText (cs : List Char) : List Char :=
  cs.takeWhile fun c => !isBoundary c

end Text

end Diagnostics
