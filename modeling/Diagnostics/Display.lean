import Diagnostics.Styled

/-!
# What a Terminal Shows

A terminal reads characters and shows each with the attributes in force. It
takes an escape, a bracket, numbers with semicolons between them and the letter
`m` as one order to change attributes, and shows nothing for it.

Two readings of a text are defined here. `stripEscapes` drops the orders and
keeps the rest. `display` also obeys them, and says for every character
shown what it looks like, and what is left in force at the end. Both run over
plain characters and know nothing of how a text was put together, so what they
say about styled output is said about what arrives at the terminal.

Numbers that have no meaning here are passed over.

## Main definitions

* `Attributes`: Bold and a colour.
* `Attributes.obey`: The effect of an order.
* `orderNumbers?`: The numbers of an order, after its escape character.
* `stripEscapes`: A text without orders.
* `display`: The characters shown, each with its attributes.
* `plainly`: A text shown with the same attributes throughout.
-/

namespace Diagnostics

/-- The colours that styled output uses. -/
inductive Color
  | red
  | green
  | magenta
deriving DecidableEq, Repr

/-- What a terminal has in force: bold or not, and a colour or its own. -/
structure Attributes where
  bold : Bool := false
  color : Option Color := none
deriving DecidableEq, Repr

/-- The character with which an order begins. -/
def escapeChar : Char := '\x1b'

namespace Attributes

/-- The effect of one number of an order. Zero turns everything off. -/
def obeyNumber (attributes : Attributes) (number : List Char) : Attributes :=
  match number with
  | ['0'] => {}
  | ['1'] => { attributes with bold := true }
  | ['3', '1'] => { attributes with color := some .red }
  | ['3', '2'] => { attributes with color := some .green }
  | ['3', '5'] => { attributes with color := some .magenta }
  | _ => attributes

/-- The effect of an order, given by the characters between its bracket and its
    letter. -/
def obey (attributes : Attributes) (numbers : List Char) : Attributes :=
  (numbers.splitOn ';').foldl obeyNumber attributes

end Attributes

/-- The characters that stand between the bracket of an order and its letter. -/
def isOrderChar (c : Char) : Bool :=
  c.isDigit || c == ';'

/-- The numbers of the order that stands after an escape character, if one does. -/
def orderNumbers? : List Char → Option (List Char)
  | '[' :: rest =>
    if (rest.dropWhile isOrderChar).head? = some 'm' then some (rest.takeWhile isOrderChar)
    else none
  | _ => none

/-- The text without orders, after `taken` more characters of one. -/
def stripFrom : Nat → List Char → List Char
  | _, [] => []
  | taken + 1, _ :: rest => stripFrom taken rest
  | 0, c :: rest =>
    match (if c = escapeChar then orderNumbers? rest else none) with
    | some numbers => stripFrom (numbers.length + 2) rest
    | none => c :: stripFrom 0 rest

/-- The text without orders. -/
def stripEscapes (cs : List Char) : List Char :=
  stripFrom 0 cs

/-- What is shown of a text, and the attributes left in force, after `taken`
    more characters of an order. -/
def displayFrom : Nat → Attributes → List Char → List (Char × Attributes) × Attributes
  | _, attributes, [] => ([], attributes)
  | taken + 1, attributes, _ :: rest => displayFrom taken attributes rest
  | 0, attributes, c :: rest =>
    match (if c = escapeChar then orderNumbers? rest else none) with
    | some numbers => displayFrom (numbers.length + 2) (attributes.obey numbers) rest
    | none =>
      let after := displayFrom 0 attributes rest
      ((c, attributes) :: after.1, after.2)

/-- What is shown of a text that starts with certain attributes in force, and
    the attributes left in force. -/
def display (attributes : Attributes) (cs : List Char) : List (Char × Attributes) × Attributes :=
  displayFrom 0 attributes cs

/-- A text as it is shown with the same attributes throughout. -/
def plainly (attributes : Attributes) (cs : List Char) : List (Char × Attributes) :=
  cs.map fun c => (c, attributes)

end Diagnostics
