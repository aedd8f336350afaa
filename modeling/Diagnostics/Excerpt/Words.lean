import Mathlib.Algebra.Order.Ring.Int
import Diagnostics.Excerpt

/-!
# Excerpts in Machine Words

The excerpt once more, as a machine comes by it whose numbers are words of 64
bits and whose texts and lines have ends. Every step that such a machine can
fail at has an answer of its own here for the case that it fails: a sum that is
no word any more, a difference below zero, a number with a sign out of range, a
clamp between bounds that have crossed, and a piece of a text or of a line that
is not there.

`Excerpt.ofSpan?` leaves most of this unsaid. Its subtractions stop at zero, its
pieces stop at the end, and its numbers have no size, so that a step out of
range would show in nothing but a wrong result. It only fails where the span does
not fit the text. Whether the steps are in range wherever it has an answer is
the question that the definitions of this module are for.

## Main definitions

* `Word.ofNat?`, `Word.ofInt?`: A number that has to be a word.
* `Word.sub?`, `Word.toNat?`, `Word.clamp?`: Steps that have to be in range.
* `piece?`, `Text.pieceOf?`: A piece that has to be there.
* `windowStartInWords?`: The first column of a window.
* `MarkedLine.clipInWords?`: A long line cut to a width.
* `MarkedLine.fitInWords?`: A line as a terminal of some width shows it.
* `MarkedLine.parts?`: The three parts of a line.
* `Excerpt.ofSpanInWords?`: The excerpt for a span of a text.
-/

namespace Diagnostics

namespace Word

/-- A number without a sign, if it is a word. -/
def ofNat? (n : Nat) : Option Nat :=
  if n < 2 ^ 64 then some n else none

/-- A number with a sign, if it is a word. -/
def ofInt? (n : Int) : Option Int :=
  if -2 ^ 63 ≤ n ∧ n < 2 ^ 63 then some n else none

/-- A difference, if it is not below zero. -/
def sub? (a b : Nat) : Option Nat :=
  if b ≤ a then some (a - b) else none

/-- A number with a sign as one without. -/
def toNat? (n : Int) : Option Nat :=
  if 0 ≤ n then some n.toNat else none

/-- A number pushed between two bounds, which have to be in order. -/
def clamp? (low high n : Int) : Option Int :=
  if low ≤ high then some (if n < low then low else if high < n then high else n) else none

end Word

/-- The items from one place of a list up to another. -/
def piece? {α : Type} (items : List α) (start stop : Nat) : Option (List α) :=
  if start ≤ stop ∧ stop ≤ items.length then some ((items.take stop).drop start) else none

/-- The text from one byte offset up to another. -/
def Text.pieceOf? (cs : List Char) (start stop : Nat) : Option (List Char) := do
  let length ← Word.sub? stop start
  Text.slice? start length cs

/-- The first column of a window of `width` columns onto a line of `length`
    columns with `[start, stop)` marked. -/
def windowStartInWords? (length start stop width : Nat) : Option Nat := do
  let length ← Word.ofInt? length
  let width ← Word.ofInt? width
  let start ← Word.ofInt? start
  let stop ← Word.ofInt? stop
  let both ← Word.ofInt? (start + stop)
  let spare ← Word.ofInt? (both - width)
  let withContext ← Word.ofInt? (start - Int.tdiv width 5)
  let centred := Int.tdiv spare 2
  let wanted := if withContext < centred then withContext else centred
  let room ← Word.ofInt? (length - width)
  let offset ← Word.clamp? 0 room wanted
  Word.toNat? offset

namespace MarkedLine

/-- Dots in place of the columns of an edge, as far as there are any. -/
def overwrite (edge : List Char) : List Char :=
  ellipsis.take edge.length ++ edge.drop ellipsis.length

/-- Put dots over the left edge, with both pieces of the line cut out under a check. -/
def elideLeftInWords? (line : MarkedLine) : Option MarkedLine :=
  if ellipsis.length < line.chars.length then do
    let edge ← piece? line.chars 0 ellipsis.length
    let others ← piece? line.chars ellipsis.length line.chars.length
    let start := max line.start ellipsis.length
    return { chars := overwrite edge ++ others, start, stop := max line.stop start }
  else some line

/-- Put dots over the right edge, with the width of the rest subtracted under a
    check. -/
def elideRightInWords? (line : MarkedLine) : Option MarkedLine :=
  if ellipsis.length < line.chars.length then do
    let tail ← Word.sub? line.chars.length ellipsis.length
    let others ← piece? line.chars 0 tail
    let edge ← piece? line.chars tail line.chars.length
    return { chars := others ++ overwrite edge
             start := line.start
             stop := max (min line.stop tail) line.start }
  else some line

/-- Cut a line that is longer than `width` to that width around its marker. -/
def clipInWords? (line : MarkedLine) (width : Nat) : Option MarkedLine := do
  let offset ← windowStartInWords? line.chars.length line.start line.stop width
  let stop ← Word.ofNat? (offset + width)
  let chars ← piece? line.chars offset stop
  let shown : MarkedLine :=
    { chars, start := line.start - offset, stop := min (line.stop - offset) chars.length }
  let shown ← if 0 < offset then shown.elideLeftInWords? else some shown
  if stop < line.chars.length then shown.elideRightInWords? else some shown

/-- The line as a terminal of some width shows it. -/
def fitInWords? (line : MarkedLine) (width : Nat) : Option MarkedLine :=
  if 0 < width ∧ width < line.chars.length then line.clipInWords? width else some line

/-- The parts of a line before, under and after its marker. -/
def parts? (line : MarkedLine) : Option (List Char × List Char × List Char) := do
  let before ← piece? line.chars 0 line.start
  let marked ← piece? line.chars line.start line.stop
  let after ← piece? line.chars line.stop line.chars.length
  return (before, marked, after)

/-- A line put together from its parts. -/
def ofParts (before marked after : List Char) : MarkedLine :=
  { chars := before ++ marked ++ after
    start := before.length
    stop := before.length + marked.length }

end MarkedLine

namespace Excerpt

/-- The excerpt for a span of a text on a terminal of some width. -/
def ofSpanInWords? (cs : List Char) (span : Span) (width : Nat) : Option Excerpt := do
  let stop ← Word.ofNat? (span.start + span.length)
  let before ← Text.pieceOf? cs 0 span.start
  let place := Text.position before
  let number ← Word.ofNat? (place.lineCount + 1)
  let column ← Word.sub? (Text.byteLength before) place.lineStart
  let rest ← Text.pieceOf? cs place.lineStart (Text.byteLength cs)
  let lineStop ← Word.ofNat? (place.lineStart + Text.byteLength (Text.lineText rest))
  let text ← Text.pieceOf? cs place.lineStart lineStop
  let lead ← Text.pieceOf? cs place.lineStart span.start
  -- The end of the span is only looked at if the span is no point.
  let upto ← (if 0 < span.length then Text.pieceOf? cs place.lineStart stop else some lead)
  let first ← Word.ofNat? (Text.expandedWidth lead)
  let last ← Word.ofNat? (Text.expandedWidth upto)
  let shown ← (MarkedLine.ofBounds (Text.expandTabs text) first last).fitInWords? width
  let (before, marked, after) ← shown.parts?
  return { line := number, column, shown := .ofParts before marked after }

end Excerpt

end Diagnostics
