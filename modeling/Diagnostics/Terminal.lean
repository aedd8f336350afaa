/-!
# Terminals and Colour

What is known of the stream that output goes to, and how the user's choice of
colour is put on top of it. The choice replaces what was detected about colour
and nothing else; a width of zero means that the width is not known and
nothing is cut.

## Main definitions

* `ColorMode`: The user's choice.
* `ColorMode.enables`: Whether colour is written, given what is supported.
* `Terminal`: What the output stream can show.
* `Terminal.plain`: A stream without colour and without a width.
* `Terminal.withColorMode`: A terminal with the user's choice applied.
-/

namespace Diagnostics

/-- The user's choice about colour. -/
inductive ColorMode
  /-- Where the terminal supports it. -/
  | auto
  | never
  /-- Everywhere, also where no support was detected. -/
  | always
deriving DecidableEq, Repr

/-- Whether colour is written on a stream that does or does not support it. -/
def ColorMode.enables (mode : ColorMode) (supported : Bool) : Bool :=
  match mode with
  | .auto => supported
  | .never => false
  | .always => true

/-- What is known of the terminal that output goes to. -/
structure Terminal where
  /-- Whether a person is looking at the stream. -/
  interactive : Bool
  /-- Whether escapes for colour are written. -/
  colored : Bool
  /-- Width in columns, zero if unknown. -/
  width : Nat
deriving DecidableEq, Repr

namespace Terminal

/-- Output that goes to no terminal at all. -/
def plain : Terminal :=
  { interactive := false, colored := false, width := 0 }

/-- The terminal once the user had a say about colour. -/
def withColorMode (terminal : Terminal) (mode : ColorMode) : Terminal :=
  { terminal with colored := mode.enables terminal.colored }

end Terminal

end Diagnostics
