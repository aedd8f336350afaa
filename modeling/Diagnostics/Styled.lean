/-!
# Styled Text

Output is put together once, as a list of texts and styles, and written with
or without the styles. That the two forms say the same is therefore a fact
about one function, `Styled.write`, and not about every place that produces
output.

A style is a terminal escape. There is no nesting: `reset` turns everything
off, and `resetBold` does so and turns bold on again.

## Main definitions

* `Style`: The escapes in use.
* `Piece`: A text or a style.
* `Styled`: A list of pieces.
* `Styled.chars`: The characters of a styled text, with or without styles.
* `Styled.write`: The same as a string.

## Theorems

* `Styled.chars_append`: Writing in two goes is writing at once.
-/

namespace Diagnostics

/-- The escapes in use. -/
inductive Style
  /-- Everything off. -/
  | reset
  /-- The colour of errors. -/
  | red
  /-- The colour of marked text and its marker. -/
  | green
  /-- The colour of warnings. -/
  | magenta
  | bold
  /-- Everything off but bold. -/
  | resetBold
deriving DecidableEq, Repr

/-- What is written for a style. -/
def Style.code : Style → String
  | .reset => "\x1b[0m"
  | .red => "\x1b[31m"
  | .green => "\x1b[32m"
  | .magenta => "\x1b[35m"
  | .bold => "\x1b[1m"
  | .resetBold => "\x1b[0;1m"

/-- A text, or a style for what comes behind it. -/
inductive Piece
  | text (cs : List Char)
  | style (escape : Style)
deriving DecidableEq, Repr

/-- The characters of a piece. A style has some only if colour is written. -/
def Piece.chars (colored : Bool) : Piece → List Char
  | .text cs => cs
  | .style escape => if colored then escape.code.toList else []

/-- Output put together from pieces, before it is decided whether to write the
    styles. -/
abbrev Styled := List Piece

namespace Styled

/-- The characters of a styled text, with or without its styles. -/
def chars (colored : Bool) (styled : Styled) : List Char :=
  styled.flatMap (Piece.chars colored)

/-- A styled text as a string, with or without its styles. -/
def write (colored : Bool) (styled : Styled) : String :=
  String.ofList (styled.chars colored)

theorem chars_append (colored : Bool) (a b : Styled) :
    chars colored (a ++ b) = chars colored a ++ chars colored b :=
  List.flatMap_append

end Styled

end Diagnostics
