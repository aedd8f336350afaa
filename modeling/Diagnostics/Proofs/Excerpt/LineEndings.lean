import Diagnostics.Proofs.Excerpt.Exact
import Diagnostics.Proofs.Text.Returns
import Diagnostics.Render

/-!
# Excerpts and Line Endings

Which line ending a file is kept with makes no difference to what is said about
it. With a return before each line feed every offset moves, and a span that
runs over line ends covers more bytes than before; but the line it begins on
is as long, starts after as many others, and is cut at the same columns. What
a span covers past the end of its line is measured and then drawn back in, so
the extra returns there are measured for nothing.

An excerpt therefore comes out the same, on a terminal of any width, and so
does everything that is rendered from it.

## Main definitions

* `Span.withReturns`: A span of a text, in the text with returns.
* `Source.withReturns`: A source with a return before each line feed.

## Theorems

* `Excerpt.ofSpan?_withReturns`: The excerpt is the same.
* `Message.render?_withReturns`: And so is the text that is rendered.
-/

namespace Diagnostics

open Text

/-- A span of a text, in the text with returns: both of its ends move. -/
def Span.withReturns (cs : List Char) (span : Span) : Span where
  start := offsetWithReturns cs span.start
  length := offsetWithReturns cs span.stop - offsetWithReturns cs span.start

/-- A source of the same name whose lines end in pairs. -/
def Source.withReturns (source : Source) : Source :=
  { source with contents := String.ofList (Text.withReturns source.chars) }

theorem Source.chars_withReturns (source : Source) :
    source.withReturns.chars = Text.withReturns source.chars :=
  String.toList_ofList

namespace Excerpt

/-- The ends of a span are between the same pieces of the text. -/
theorem withReturns_span_append (opening lead covered after : List Char) (hlead : IsPlain lead) :
    (⟨byteLength (opening ++ lead), byteLength covered⟩ : Span).withReturns
        (opening ++ lead ++ (covered ++ after))
      = ⟨byteLength (Text.withReturns opening ++ lead), byteLength (Text.withReturns covered)⟩ := by
  have hstart := offsetWithReturns_append (opening ++ lead) (covered ++ after)
  have hstop := offsetWithReturns_append (opening ++ lead ++ covered) after
  rw [List.append_assoc (opening ++ lead), Text.withReturns_append _ covered] at hstop
  have hsum : byteLength (opening ++ lead) + byteLength covered
      = byteLength (opening ++ lead ++ covered) := (byteLength_append _ _).symm
  simp only [Span.withReturns, Span.stop, hsum, hstart, hstop]
  rw [byteLength_append, Nat.add_sub_cancel_left, Text.withReturns_append,
    withReturns_of_isPlain hlead]

/-- The line that is shown stops at the first boundary, and that is where the
    two texts begin to differ. -/
theorem shownLine_withReturns (lead covered after : List Char) (hlead : IsPlain lead) :
    shownLine lead (Text.withReturns covered) (Text.withReturns after)
      = shownLine lead covered after := by
  rw [shownLine_eq _ _ _ hlead, shownLine_eq _ _ _ hlead, ← Text.withReturns_append,
    lineText_withReturns, lineText_withReturns]

theorem ofSpan?_withReturns {cs : List Char} {span : Span} (hreturn : '\r' ∉ cs)
    (hfits : span.FitsIn cs) (width : Nat) :
    ∃ e, ofSpan? cs span width = some e ∧
      ofSpan? (Text.withReturns cs) (span.withReturns cs) width = some e := by
  rcases exists_pieces hfits with ⟨opening, lead, covered, after, rfl, rfl, hopening, hlead⟩
  refine ⟨_, ofSpan?_append opening lead covered after width hopening hlead, ?_⟩
  -- Without returns of its own the text has as many lines as the one with them.
  have hreturn' : '\r' ∉ opening := fun hmem =>
    hreturn (List.mem_append_left _ (List.mem_append_left _ hmem))
  rw [withReturns_span_append _ _ _ _ hlead, Text.withReturns_append, Text.withReturns_append,
    Text.withReturns_append, withReturns_of_isPlain hlead,
    ofSpan?_append _ _ _ _ width (endsLine_withReturns hopening) hlead,
    shownLine_withReturns _ _ _ hlead, lineCount_read_withReturns hreturn']

end Excerpt

namespace Message

/-- A message about a span of a source, and the same message about that span in
    the source with a return before each line feed. Both can be rendered, on any
    terminal and with any options, and the texts are the same. -/
theorem render?_withReturns {source : Source} {span : Span} (hreturn : '\r' ∉ source.chars)
    (hfits : span.FitsIn source.chars) (text : String) (kind : Kind) (terminal : Terminal)
    (options : Options) :
    ∃ rendered,
      ({ source := some source, span, text, kind } : Message).render? terminal options
        = some rendered ∧
      ({ source := some source.withReturns, span := span.withReturns source.chars, text,
         kind } : Message).render? terminal options = some rendered := by
  have hwidth := Excerpt.ofSpan?_withReturns hreturn hfits terminal.width
  rcases hwidth with ⟨e, he, he'⟩
  rw [← Source.chars_withReturns] at he'
  -- Only a snippet looks at the span, and it looks at nothing but the excerpt.
  cases hsnippet : options.snippet with
  | false =>
      simp only [render?, styled?, hsnippet, Bool.false_eq_true, if_false, Option.map_some]
      exact ⟨_, rfl, rfl⟩
  | true =>
      simp only [render?, styled?, hsnippet, if_true, he, he', Option.map_some]
      exact ⟨_, rfl, rfl⟩

/-- Three lines that end with line feeds. -/
def fedSource : Source :=
  { index := 0, absolutePath := "/a", displayPath := "a", contents := "é\n\tbc\nd" }

/-- A span from the middle of the second line into the third. With returns it
    covers one byte more and begins one further on, and is shown as before. -/
theorem render?_withReturns_across_lines :
    let message (source : Source) (span : Span) : Message :=
      { source := some source, span, text := "here", kind := .error }
    '\r' ∉ fedSource.chars ∧ (⟨5, 3⟩ : Span).FitsIn fedSource.chars ∧
      (⟨5, 3⟩ : Span).withReturns fedSource.chars = ⟨6, 4⟩ ∧
      (message fedSource.withReturns ⟨6, 4⟩).render? .plain { snippet := true }
        = some "a:2:2: error: here\n  bc\n   ^\n" := by
  intro message
  have hreturn : '\r' ∉ fedSource.chars := by decide
  have hfits : (⟨5, 3⟩ : Span).FitsIn fedSource.chars :=
    ⟨['é', '\n', '\t', 'b'], ['c', '\n', 'd'], [], by decide, by decide, by decide⟩
  have hspan : (⟨5, 3⟩ : Span).withReturns fedSource.chars = ⟨6, 4⟩ := by decide
  -- One of the two texts is computed, and so the other is known.
  rcases render?_withReturns hreturn hfits "here" .error .plain { snippet := true } with
    ⟨rendered, hrendered, hrendered'⟩
  have htext : (message fedSource ⟨5, 3⟩).render? .plain { snippet := true }
      = some "a:2:2: error: here\n  bc\n   ^\n" := by decide
  rw [hspan, ← hrendered, htext] at hrendered'
  exact ⟨hreturn, hfits, hspan, hrendered'⟩

end Message

end Diagnostics
