import Diagnostics.Severity
import Diagnostics.Text.Quoted

/-!
# Sources and Messages

A source is a named text. A message is about a span of a source, or about
nothing in particular, and says one thing of one kind.

Nothing is checked when a message is made. Whether its span is a place in its
source is asked when the text there is needed, and the operations that need it
answer `none` if it is not.

## Main definitions

* `Source`: A named text.
* `Source.textOf?`: The text that a span covers.
* `Source.quotedAt?`: The quoted literal that starts at an offset.
* `Message`: A diagnostic.
* `anyError`: Whether some message is an error.
-/

namespace Diagnostics

/-- A named text that messages point into. -/
structure Source where
  /-- Place in the order of loading. -/
  index : Nat
  /-- Where the text was read from. -/
  absolutePath : String
  /-- The path as shown to the user. -/
  displayPath : String
  contents : String
deriving DecidableEq, Repr

namespace Source

/-- The text of a source, as the characters that every scan runs over. -/
def chars (source : Source) : List Char :=
  source.contents.toList

/-- The text that a span covers, or `none` if the span does not fit. -/
def textOf? (source : Source) (span : Span) : Option (List Char) :=
  Text.slice? span.start span.length source.chars

/-- The quoted literal that starts at a byte offset, as a span that is a point
    if there is no complete one. An offset past the end has no answer. One
    inside a character is a place where no literal starts. -/
def quotedAt? (source : Source) (offset : Nat) : Option Span :=
  let bytes := Text.bytes source.chars
  if offset ≤ bytes.length then
    some ⟨offset, (Text.literalLength? (bytes.drop offset)).getD 0⟩
  else none

end Source

/-- A diagnostic. Without a source it concerns the whole job. -/
structure Message where
  source : Option Source
  span : Span
  text : String
  kind : Kind
deriving DecidableEq, Repr

namespace Message

/-- A message about nothing in particular. Its span is never looked at. -/
def unplaced (kind : Kind) (text : String) : Message :=
  { source := none, span := ⟨0, 0⟩, text, kind }

/-- Whether a message is an error and not a warning. -/
def isError (message : Message) : Bool :=
  message.kind == .error

end Message

/-- Whether some message is an error, which decides how a program ends. -/
def anyError (messages : List Message) : Bool :=
  messages.any Message.isError

end Diagnostics
