/-!
# Marked Lines and the Window onto Them

A line as displayed, with the columns `[start, stop)` marked, and the cut that
makes a long line fit a terminal.

The window is placed so that the marker is in the middle, unless that would
leave less than a fifth of the width to the left of the marker; then it moves
left until the fifth is there. Last it is pushed inside the line. The placement
is computed with signed numbers because the middle of a marker near the start
of a line lies less than half a width from it; the quotient is rounded towards
zero, and the push afterwards makes every negative placement zero.

An edge at which something was cut off is overwritten with three dots, and the
marker is drawn in so that it never lies over them. In a window of three
columns or fewer the dots would be all there is to see, so they are left out.

## Main definitions

* `ellipsis`: The text that stands for what was cut off.
* `MarkedLine`: A line and the columns that are marked.
* `MarkedLine.ofBounds`: A line with bounds that may lie outside it.
* `MarkedLine.before`, `MarkedLine.marked`, `MarkedLine.after`: The three parts
  of the line.
* `MarkedLine.indent`, `MarkedLine.marker`: What stands under the line.
* `windowStart`: The first column of the window.
* `MarkedLine.window`: The line as seen through a window.
* `MarkedLine.elideLeft`, `MarkedLine.elideRight`: Dots over a cut edge.
* `MarkedLine.clip`: A long line cut to a width.
* `MarkedLine.fit`: A line as a terminal of some width shows it.
-/

namespace Diagnostics

/-- The text that stands for what was cut off at an edge. -/
def ellipsis : List Char := ['.', '.', '.']

/-- A line and the columns `[start, stop)` that are marked. -/
structure MarkedLine where
  chars : List Char
  /-- The first marked column. -/
  start : Nat
  /-- The column after the last marked one. -/
  stop : Nat
deriving DecidableEq, Repr

namespace MarkedLine

/-- A line with bounds that may lie outside it. Both are drawn back to the end
    of the line, and the second to the first. -/
def ofBounds (chars : List Char) (start stop : Nat) : MarkedLine :=
  let start := min start chars.length
  { chars, start, stop := max (min stop chars.length) start }

/-- What stands to the left of the marked columns. -/
def before (line : MarkedLine) : List Char :=
  line.chars.take line.start

/-- What stands in the marked columns. -/
def marked (line : MarkedLine) : List Char :=
  (line.chars.take line.stop).drop line.start

/-- What stands to the right of the marked columns. -/
def after (line : MarkedLine) : List Char :=
  line.chars.drop line.stop

/-- The blanks in front of the marker. -/
def indent (line : MarkedLine) : List Char :=
  List.replicate line.start ' '

/-- The marker: a run of tildes under two or more columns, else a circumflex, which
    takes a column even if nothing is marked. -/
def marker (line : MarkedLine) : List Char :=
  if 1 < line.stop - line.start then List.replicate (line.stop - line.start) '~' else ['^']

end MarkedLine

/-- The first column of a window of `width` columns onto a line of `length`
    columns with `[start, stop)` marked. -/
def windowStart (length start stop width : Nat) : Nat :=
  let centred : Int := Int.tdiv (start + stop - width) 2
  let withContext : Int := start - (width / 5 : Nat)
  (max 0 (min (min centred withContext) (length - width))).toNat

namespace MarkedLine

/-- The line as seen through a window of `width` columns from `offset` on. -/
def window (line : MarkedLine) (offset width : Nat) : MarkedLine :=
  let chars := (line.chars.drop offset).take width
  { chars, start := line.start - offset, stop := min (line.stop - offset) chars.length }

/-- Put dots over the left edge and draw the marker in to the right of them. A
    line that the dots would fill is left as it is. -/
def elideLeft (line : MarkedLine) : MarkedLine :=
  if ellipsis.length < line.chars.length then
    let start := max line.start ellipsis.length
    { chars := ellipsis ++ line.chars.drop ellipsis.length
      start
      stop := max line.stop start }
  else line

/-- Put dots over the right edge and draw the end of the marker in to the left
    of them, but not past its start. -/
def elideRight (line : MarkedLine) : MarkedLine :=
  if ellipsis.length < line.chars.length then
    let edge := line.chars.length - ellipsis.length
    { chars := line.chars.take edge ++ ellipsis
      start := line.start
      stop := max (min line.stop edge) line.start }
  else line

/-- Cut a line that is longer than `width` to that width around its marker. -/
def clip (line : MarkedLine) (width : Nat) : MarkedLine :=
  let offset := windowStart line.chars.length line.start line.stop width
  let shown := line.window offset width
  let shown := if 0 < offset then shown.elideLeft else shown
  if offset + width < line.chars.length then shown.elideRight else shown

/-- The line as a terminal of some width shows it: cut if it is too long, and
    as it is if it fits or the width is not known. -/
def fit (line : MarkedLine) (width : Nat) : MarkedLine :=
  if 0 < width ∧ width < line.chars.length then line.clip width else line

end MarkedLine

end Diagnostics
