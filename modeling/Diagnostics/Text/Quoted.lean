import Diagnostics.Text.Span

/-!
# Quoted Literals

A literal starts with a quote, single or double, and ends at the next quote of
the same kind; a backslash takes the byte after it along, whatever it is. The
scan works on bytes. That is sound for UTF-8 text because both quotes and the
backslash are bytes that never occur inside a longer character.

`IsLiteral` says what a literal is without scanning: a quote, a body made of
plain bytes and escaped pairs, and the quote again. `closing?` finds the end in
one pass.

All literals of a text are found by a second pass around that one. It tries at
each quote; a literal that closes is taken and the pass goes on after it, and
one that does not is passed over by its opening quote only. The bytes of a
literal already taken are counted down rather than cut off, which keeps the
pass a plain recursion on the bytes.

## Main definitions

* `singleQuote`, `doubleQuote`, `backslash`: The bytes with a meaning.
* `isQuote`: The bytes that open a literal.
* `closing?`: The bytes up to and with the closing quote.
* `literalLength?`: The length of the literal that a byte sequence starts with.
* `literals`: The literals of a text, found from left to right.
* `IsBody`: A sequence of plain bytes and escaped pairs.
* `IsLiteral`: A body between two quotes of one kind.
-/

namespace Diagnostics

namespace Text

/-- The byte of a single quote. -/
def singleQuote : UInt8 := 39

/-- The byte of a double quote. -/
def doubleQuote : UInt8 := 34

/-- The byte that takes the one after it along. -/
def backslash : UInt8 := 92

/-- The bytes that open a literal. -/
def isQuote (b : UInt8) : Bool :=
  b == doubleQuote || b == singleQuote

/-- The number of bytes up to and with the quote that closes a literal, from
    just after the opening one, or `none` if the literal is not closed. -/
def closing? (quote : UInt8) : List UInt8 → Option Nat
  | [] => none
  | [b] => if b = quote then some 1 else none
  | b :: escaped :: rest =>
    if b = quote then some 1
    else if b = backslash then (closing? quote rest).map (· + 2)
    else (closing? quote (escaped :: rest)).map (· + 1)

/-- The length in bytes of the literal that the bytes start with. -/
def literalLength? : List UInt8 → Option Nat
  | [] => none
  | quote :: rest => if isQuote quote then (closing? quote rest).map (· + 1) else none

/-- The literals with a given quote, in a text whose first byte is at `offset`,
    after `taken` more bytes of a literal found before. -/
def literalsFrom (quote : UInt8) : Nat → Nat → List UInt8 → List Span
  | _, _, [] => []
  | taken + 1, offset, _ :: rest => literalsFrom quote taken (offset + 1) rest
  | 0, offset, b :: rest =>
    if b = quote then
      match closing? quote rest with
      | some n => ⟨offset, n + 1⟩ :: literalsFrom quote n (offset + 1) rest
      | none => literalsFrom quote 0 (offset + 1) rest
    else literalsFrom quote 0 (offset + 1) rest

/-- The literals with a given quote, found from left to right. -/
def literals (quote : UInt8) (bytes : List UInt8) : List Span :=
  literalsFrom quote 0 0 bytes

/-- What may stand between two quotes: plain bytes, and backslashes each with
    the byte that follows it. -/
inductive IsBody (quote : UInt8) : List UInt8 → Prop
  | nil : IsBody quote []
  | plain {b : UInt8} {rest : List UInt8} (hq : b ≠ quote) (hb : b ≠ backslash)
      (h : IsBody quote rest) : IsBody quote (b :: rest)
  | escaped {b : UInt8} {rest : List UInt8} (h : IsBody quote rest) :
      IsBody quote (backslash :: b :: rest)

/-- A body between two quotes of one kind. -/
inductive IsLiteral : List UInt8 → Prop
  | quoted {quote : UInt8} {body : List UInt8} (hq : isQuote quote = true)
      (h : IsBody quote body) : IsLiteral (quote :: (body ++ [quote]))

end Text

end Diagnostics
