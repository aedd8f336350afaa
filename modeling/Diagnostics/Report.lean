import Diagnostics.EarlyError
import Diagnostics.Sink.Session

/-!
# The Report

A small program over the library. It reads one file and reports two things
about it: lines that are indented with a tab, which are errors, and string
literals that contain a reminder, which are warnings.

The two checks work differently on purpose. The warnings are all found first
and staged in a deferred sink; the errors are found while the report is being
printed. Two producers then report to one interactive sink, one replaying what
was staged and one sending errors as it finds them, in any order. `run` takes
that order as an argument.

Everything that comes from outside is an argument: the command line, and a
function that reads a file. Nothing is decided by what is outside except
through them.

A message whose span does not fit would end the program without an orderly
outcome. Every span here comes from a scan of the text it points into, so none
does; but that is a fact about the scans and not about the types, and `run`
answers an `Option`.

## Main definitions

* `ReadError`: Why a file could not be read.
* `InputFile`: A file that was read.
* `Report.inputPath?`: The path among the arguments.
* `Report.options`: The settings of the report.
* `Report.mentions`: Whether a text contains another.
* `Report.reminderSpans?`: The literals that contain a reminder.
* `Report.reminders?`: The warnings about them.
* `Report.lines`: The lines of a text, each with its line feed.
* `Report.tabErrors`: The errors about indentation.
* `Report.Outcome`: What the program writes and answers.
* `Report.run`: The whole program.
-/

namespace Diagnostics

/-- Why a file could not be read. -/
inductive ReadError
  /-- The operating system refused, with its words and its number for it. -/
  | system (text : String) (code : Nat)
  | notText
deriving DecidableEq, Repr

namespace ReadError

/-- There is no file of that name. -/
def notFound : ReadError :=
  .system "No such file or directory" 2

/-- There is one, but it is a directory. -/
def isDirectory : ReadError :=
  .system "Is a directory" 21

/-- A reason in the words that the user is shown. -/
def message : ReadError → String
  | .system text code => text ++ " (os error " ++ toString code ++ ")"
  | .notText => "stream did not contain valid UTF-8"

end ReadError

/-- A file that was read, with the place where it was found. -/
structure InputFile where
  absolutePath : String
  contents : String
deriving DecidableEq, Repr

/-- The text of a file, if its bytes are UTF-8. -/
def InputFile.decode (bytes : ByteArray) : Except ReadError String :=
  match String.fromUTF8? bytes with
  | some contents => .ok contents
  | none => .error .notText

namespace Report

/-- The path among the arguments: the first one that is no flag. -/
def inputPath? (args : List String) : Option String :=
  args.find? fun arg => !"--".toList.isPrefixOf arg.toList

/-- The settings of the report: those of the arguments, with snippets, at most
    ten errors, and a level that asks for a summary unless the arguments set
    another. -/
def options (args : List String) : Options :=
  let asked := Options.ofArgs args
  { asked with
    snippet := true
    errorLimit := 10
    level := if asked.level = .none then .info else asked.level }

/-- Whether a text contains the needle, tried at each of its places. -/
def mentions (needle : List Char) : List Char → Bool
  | [] => needle.isEmpty
  | c :: cs => needle.isPrefixOf (c :: cs) || mentions needle cs

/-- The spans whose text contains a reminder, or `none` if one of the spans does
    not fit the text. -/
def reminderSpans? (cs : List Char) : List Span → Option (List Span)
  | [] => some []
  | span :: rest => do
    let covered ← Text.slice? span.start span.length cs
    let others ← reminderSpans? cs rest
    return if mentions "TODO".toList covered then span :: others else others

/-- The warnings about literals, from left to right. -/
def reminders? (source : Source) : Option (List Message) := do
  let cs := source.chars
  let spans ← reminderSpans? cs (Text.literals Text.doubleQuote (Text.bytes cs))
  return spans.map fun span =>
    { source := some source, span, text := "string mentions TODO", kind := .warning }

/-- The lines of a text, each with the line feed that ends it. Nothing but a line
    feed ends a line here, and there is no line after the last line feed. -/
def lines : List Char → List (List Char)
  | [] => []
  | c :: cs =>
    if c = '\n' then [c] :: lines cs
    else
      match lines cs with
      | [] => [[c]]
      | line :: rest => (c :: line) :: rest

/-- The offsets of the lines that start with a tab, of which the first line
    starts at `offset`. -/
def tabOffsets (offset : Nat) : List (List Char) → List Nat
  | [] => []
  | line :: rest =>
    let others := tabOffsets (offset + Text.byteLength line) rest
    if line.head? = some '\t' then offset :: others else others

/-- The errors about indentation, from top to bottom. -/
def tabErrors (source : Source) : List Message :=
  (tabOffsets 0 (lines source.chars)).map fun offset =>
    { source := some source
      span := ⟨offset, 0⟩
      text := "line is indented with a tab"
      kind := .error }

/-- What the program writes and answers. -/
structure Outcome where
  exitCode : Nat
  stderr : String
  stdout : String := ""
deriving DecidableEq, Repr

/-- The outcome of a program that could not start. -/
def refuse (args : List String) (text : String) : Outcome :=
  { exitCode := 1, stderr := earlyError args text }

/-- The messages that a deferred sink hands over after taking some. -/
def staged? (messages : List Message) : Option (List Message) :=
  (Sink.deferred.replay messages).1.finalize.map (·.kept)

/-- The report on a file, with the errors' producer as number zero and the
    staged warnings' as number one. -/
def describe (args : List String) (source : Source) (order : List Nat) : Option Outcome := do
  let warnings ← (← reminders? source) |> staged?
  let sink := Sink.interactive (options args) .plain .reliable
  let session := Session.start [tabErrors source, warnings] sink
  let r ← (session.playOut order).collected
  return { exitCode := if anyError r.kept then 1 else 0, stderr := String.join r.outlet.chunks }

/-- The whole program: its arguments, a way to read a file, and the order in
    which the two producers speak. -/
def run (args : List String) (read : String → Except ReadError InputFile) (order : List Nat) :
    Option Outcome :=
  match inputPath? args with
  | none => some (refuse args "no input file")
  | some path =>
    match read path with
    | .error reason => some (refuse args ("could not read " ++ path ++ ": " ++ reason.message))
    | .ok file =>
      describe args
        { index := 0, absolutePath := file.absolutePath, displayPath := path,
          contents := file.contents } order

end Report

end Diagnostics
