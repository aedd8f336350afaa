import Diagnostics.Excerpt
import Diagnostics.Options
import Diagnostics.Styled

/-!
# Rendering Messages

A message is rendered in one of three shapes. Without a source it is a label
and its text. With one, its path comes first, and if snippets are asked for,
the place as well, followed by the line it lies on and a marker under it.

Only the last shape looks at the span, so only there can a span that does not
fit its source be noticed: `Message.styled?` answers `none` exactly then.

Colour is no part of the choice. All three shapes are styled texts, each of
which ends with everything off again; whether the styles are written is decided
at the very end, in `Message.render?`.

## Main definitions

* `Kind.style`: The colour of a kind's label.
* `placeOfPath`, `placeOfExcerpt`: Where a message is, in front of its label.
* `Message.label`: A coloured label and the message's text.
* `Message.headline`: The shapes of one line.
* `Message.snippet`: The shape with the source line and its marker.
* `Message.styled?`: A message as styled text.
* `Message.render?`: A message as a string.

## Theorems

* `Message.styled?_cases`: Which of the three shapes a message has.
* `Message.render?_eq_none_iff`: Only a snippet can be impossible.
-/

namespace Diagnostics

/-- The colour of a kind's label. -/
def Kind.style : Kind → Style
  | .error => .red
  | .warning => .magenta

/-- A path followed by what separates it from the label. -/
def placeOfPath (path : String) : Piece :=
  .text (path.toList ++ [':', ' '])

/-- A path, a line number and a column, with what separates them from the
    label. -/
def placeOfExcerpt (path : String) (excerpt : Excerpt) : Piece :=
  .text (path.toList ++ ':' :: (toString excerpt.line).toList ++
    ':' :: (toString excerpt.column).toList ++ [':', ' '])

namespace Message

/-- The label of a message in its colour, and the message's text in bold. -/
def label (message : Message) : Styled :=
  [.style message.kind.style,
   .text (message.kind.label.toList ++ [':', ' ']),
   .style .resetBold,
   .text message.text.toList]

/-- A message on one line: where it is, if it is anywhere, then what it is. -/
def headline (message : Message) (place : Styled) : Styled :=
  .style .bold :: (place ++ message.label ++ [.style .reset, .text ['\n']])

/-- A message on three lines: its place and label, the source line with the
    span in colour, and the marker under it. -/
def snippet (message : Message) (path : String) (excerpt : Excerpt) : Styled :=
  let shown := excerpt.shown
  [.style .bold, placeOfExcerpt path excerpt] ++ message.label ++
  [.text ['\n'],
   .style .reset, .text shown.before,
   .style .green, .text shown.marked,
   .style .reset, .text shown.after, .text ['\n'],
   .style .green, .text shown.indent, .text shown.marker,
   .style .reset, .text ['\n']]

/-- A message as styled text for a terminal of some width, or `none` if a
    snippet is asked for and the span does not fit the source. -/
def styled? (message : Message) (withSnippet : Bool) (width : Nat) : Option Styled :=
  match message.source with
  | none => some (message.headline [])
  | some source =>
    if withSnippet then
      (Excerpt.ofSpan? source.chars message.span width).map (message.snippet source.displayPath)
    else some (message.headline [placeOfPath source.displayPath])

/-- A message as the text that a terminal is sent. -/
def render? (message : Message) (terminal : Terminal) (options : Options) : Option String :=
  (message.styled? options.snippet terminal.width).map (Styled.write terminal.colored)

/-- Which of the three shapes a message has, and when. -/
theorem styled?_cases {message : Message} {withSnippet : Bool} {width : Nat} {styled : Styled}
    (h : message.styled? withSnippet width = some styled) :
    message.source = none ∧ styled = message.headline [] ∨
      (∃ source, message.source = some source ∧ withSnippet = false ∧
        styled = message.headline [placeOfPath source.displayPath]) ∨
      ∃ source excerpt, message.source = some source ∧ withSnippet = true ∧
        Excerpt.ofSpan? source.chars message.span width = some excerpt ∧
        styled = message.snippet source.displayPath excerpt := by
  unfold styled? at h
  -- By the two questions that the shape depends on, in their order.
  cases hsource : message.source with
  | none =>
    rw [hsource, Option.some.injEq] at h
    exact Or.inl ⟨rfl, h.symm⟩
  | some source =>
    rw [hsource] at h
    dsimp only at h
    cases withSnippet with
    | false =>
      rw [if_neg Bool.false_ne_true, Option.some.injEq] at h
      exact Or.inr (Or.inl ⟨source, rfl, rfl, h.symm⟩)
    | true =>
      rw [if_pos rfl, Option.map_eq_some_iff] at h
      rcases h with ⟨excerpt, hexcerpt, hstyled⟩
      exact Or.inr (Or.inr ⟨source, excerpt, rfl, rfl, hexcerpt, hstyled.symm⟩)

/-- A message cannot be rendered exactly if a snippet is asked for and its
    source has no excerpt for its span. -/
theorem render?_eq_none_iff {message : Message} {terminal : Terminal} {options : Options} :
    message.render? terminal options = none ↔
      ∃ source, message.source = some source ∧ options.snippet = true ∧
        Excerpt.ofSpan? source.chars message.span terminal.width = none := by
  rw [render?, Option.map_eq_none_iff, styled?]
  -- A snippet takes a source and the option, and without either there is a text.
  cases message.source with
  | none => simp only [reduceCtorEq, false_and, exists_false]
  | some source =>
    cases options.snippet with
    | false => simp only [Bool.false_eq_true, if_false, reduceCtorEq, false_and, and_false,
        exists_false]
    | true => simp only [if_true, Option.map_eq_none_iff, Option.some.injEq, true_and,
        exists_eq_left']

end Message

end Diagnostics
