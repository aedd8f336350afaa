import Diagnostics.Proofs.Color.Escapes
import Diagnostics.Proofs.Excerpt.Characters
import Diagnostics.Proofs.Sink.Wording

/-!
# The Lines of a Message

Whoever reads the output of many messages takes it line by line, and a marker
means something only under its line. So a message has to be made of as many
lines as its shape says, whatever is in the file that it is about, and its
marker has to stand under what is marked.

A message puts its own line feeds where they belong. None can come from
elsewhere: numbers and labels have none, an excerpt shows no boundary, and of a
path and a message's words it is asked. A span may run on over many lines, or
begin at a boundary, and still only one line is shown.

The second line holds no tab either, so its columns are characters, and the
marker under it needs only to be put as far to the right as what is before the
mark is long.

## Main definitions

* `Text.writeLines`: Lines, each with a line feed behind it.
* `IsMarkerLine`: Blanks and a marker, under certain columns of a line.
* `Message.IsBlock`: Three lines with what each is to hold.
* `Message.IsOneLine`: One line and its end.

## Theorems

* `Text.count_writeLines`, `Text.splitOn_writeLines`: Lines can be counted and read
  back, if no line feed is in them.
* `MarkedLine.isMarkerLine`: The marker stands under what is marked.
* `Message.isBlock_snippet`: A snippet without colour.
* `Message.isOneLine_headline`: The shapes of one line.
* `Message.isSome_render?_iff_fitsIn`: When there are any lines.
* `Message.lines_of_render?`: The lines of any message.
-/

namespace Diagnostics

open Text

namespace Text

/-- Lines one after the other, each with a line feed behind it. -/
def writeLines (lines : List (List Char)) : List Char :=
  lines.flatMap fun line => line ++ ['\n']

variable {lines : List (List Char)}

theorem writeLines_cons (line : List Char) (lines : List (List Char)) :
    writeLines (line :: lines) = line ++ '\n' :: writeLines lines := by
  simp only [writeLines, List.flatMap_cons, List.append_assoc, List.singleton_append]

/-- There are as many line feeds as there are lines. -/
theorem count_writeLines (h : ∀ line ∈ lines, '\n' ∉ line) :
    (writeLines lines).count '\n' = lines.length := by
  induction lines with
  | nil => rfl
  | cons line lines ih =>
      rw [List.forall_mem_cons] at h
      rw [writeLines_cons, List.count_append, List.count_eq_zero_of_not_mem h.1,
        List.count_cons_self, ih h.2, List.length_cons, Nat.zero_add]

theorem suffix_writeLines (hne : lines ≠ []) : ['\n'] <:+ writeLines lines := by
  rcases List.eq_nil_or_concat lines with hnil | ⟨front, last, rfl⟩
  · exact absurd hnil hne
  · simp only [writeLines, List.concat_eq_append, List.flatMap_append, List.flatMap_singleton]
    exact (List.suffix_append last _).trans (List.suffix_append _ _)

/-- Reading the lines back gives them as they were, and nothing behind the last. -/
theorem splitOn_writeLines (h : ∀ line ∈ lines, '\n' ∉ line) :
    (writeLines lines).splitOn '\n' = lines ++ [[]] := by
  induction lines with
  | nil => rfl
  | cons line lines ih =>
      rw [List.forall_mem_cons] at h
      rw [writeLines_cons, List.splitOn_append_cons_self_of_not_mem h.1, ih h.2, List.cons_append]

end Text

/-- Blanks up to a column and a marker from there on: tildes under two or more columns
    of a line, or a circumflex under one or none. -/
inductive IsMarkerLine (above marked : List Char) (k : Nat) : List Char → Prop
  | run {m : Nat} (htwo : 2 ≤ m) (hle : k + m ≤ above.length)
      (hmarked : (above.drop k).take m = marked) :
      IsMarkerLine above marked k (List.replicate k ' ' ++ List.replicate m '~')
  | point (hmarked : marked = [] ∨ ∃ c, above[k]? = some c ∧ marked = [c]) :
      IsMarkerLine above marked k (List.replicate k ' ' ++ ['^'])

/-- What stands under a line is under what is marked of it. -/
theorem MarkedLine.isMarkerLine {line : MarkedLine} (h : line.Ordered) :
    IsMarkerLine line.displayed line.marked line.before.length (line.indent ++ line.marker) := by
  rw [indent_eq line h, marker_eq line h, displayed, List.append_assoc]
  -- A run of signs has a sign for each marked column, and a circumflex is under the
  -- first one, if there is one.
  by_cases hrun : 1 < line.marked.length
  · rw [if_pos hrun]
    refine .run hrun ?_ ?_
    · simp only [List.length_append]
      omega
    · rw [List.drop_left, List.take_left]
  · rw [if_neg hrun]
    refine .point ?_
    cases hmarked : line.marked with
    | nil => exact Or.inl rfl
    | cons c rest =>
        right
        rw [hmarked, List.length_cons] at hrun
        have hrest : rest = [] := List.length_eq_zero_iff.mp (by omega)
        rw [hrest]
        refine ⟨c, ?_, rfl⟩
        rw [List.getElem?_append_right (Nat.le_refl _), Nat.sub_self]
        rfl

theorem Style.lineFeed_not_mem_code (escape : Style) : '\n' ∉ escape.code.toList := by
  cases escape <;> decide

theorem IsWording.lineFeed_not_mem {text : String} (h : IsWording text) : '\n' ∉ text.toList :=
  h.not_mem (by decide) (by decide)

namespace Message

/-- The first line of a message with a snippet: path, line, column, label and words. -/
def heading (message : Message) (path : String) (e : Excerpt) : List Char :=
  path.toList ++ [':'] ++ (toString e.line).toList ++ [':'] ++ (toString e.column).toList ++
    [':', ' '] ++ message.kind.label.toList ++ [':', ' '] ++ message.text.toList

/-- A text of three lines: the heading of a message, its source line, and a marker
    under what is marked of that. -/
structure IsBlock (message : Message) (path : String) (e : Excerpt) (text : List Char) : Prop where
  count_eq : text.count '\n' = 3
  ends : ['\n'] <:+ text
  /-- The three lines, and nothing behind the last of them. -/
  splitOn_eq : ∃ third, text.splitOn '\n' = [message.heading path e, e.shown.displayed, third, []] ∧
    IsMarkerLine e.shown.displayed e.shown.marked e.shown.before.length third
  /-- Nothing on the source line could be taken for the end of a line or is wider than a
      column. -/
  not_mem : ∀ c ∈ ['\t', '\r', '\u2028', '\u2029'], c ∉ e.shown.displayed

/-- A text of one line. -/
structure IsOneLine (text : List Char) : Prop where
  count_eq : text.count '\n' = 1
  ends : ['\n'] <:+ text

variable {message : Message} {path : String} {e : Excerpt}

/-- Without colour a snippet is its heading, its source line and its marker. -/
theorem chars_snippet (message : Message) (path : String) (e : Excerpt) :
    (message.snippet path e).chars false
      = writeLines [message.heading path e, e.shown.displayed,
          e.shown.indent ++ e.shown.marker] := by
  simp only [writeLines, snippet, placeOfExcerpt, label, heading, MarkedLine.displayed,
    Styled.chars, List.flatMap_cons, List.flatMap_nil, Piece.chars, Bool.false_eq_true,
    if_false, List.append_assoc, List.cons_append, List.nil_append]

theorem lineFeed_not_mem_heading (hpath : '\n' ∉ path.toList) (htext : '\n' ∉ message.text.toList)
    (e : Excerpt) : '\n' ∉ message.heading path e := by
  have hline := (isWording_toString e.line).lineFeed_not_mem
  have hcolumn := (isWording_toString e.column).lineFeed_not_mem
  have hlabel := message.kind.isWording_label.lineFeed_not_mem
  have hcolon : '\n' ∉ [':'] := by decide
  have hblank : '\n' ∉ [':', ' '] := by decide
  simp only [heading, List.mem_append, not_or]
  exact ⟨⟨⟨⟨⟨⟨⟨⟨hpath, hcolon⟩, hline⟩, hcolon⟩, hcolumn⟩, hblank⟩, hlabel⟩, hblank⟩, htext⟩

/-- A snippet without colour has three lines, if its path and its words have one. -/
theorem isBlock_snippet {cs : List Char} {span : Span} {width : Nat}
    (he : Excerpt.ofSpan? cs span width = some e) (hpath : '\n' ∉ path.toList)
    (htext : '\n' ∉ message.text.toList) :
    message.IsBlock path e ((message.snippet path e).chars false) := by
  have hordered := Excerpt.ordered_of_ofSpan? he
  -- A line feed is one of the boundaries, and no boundary is shown.
  have hclean : ∀ c ∈ e.shown.displayed, c ≠ '\t' ∧ isBoundary c = false := by
    intro c hmem
    rw [MarkedLine.displayed_eq_chars _ hordered] at hmem
    rcases Excerpt.mem_chars_shown he hmem with rfl | rfl | ⟨-, hclean⟩
    · decide
    · decide
    · exact hclean
  have hfirst := lineFeed_not_mem_heading hpath htext e
  have hsecond : '\n' ∉ e.shown.displayed := fun hmem =>
    absurd (hclean _ hmem).2 (by decide)
  have hthird : '\n' ∉ e.shown.indent ++ e.shown.marker :=
    e.shown.not_mem_under (by decide) (by decide) (by decide)
  -- No line of the block holds a line feed, so there are as many as were written.
  have hlines : ∀ line ∈ [message.heading path e, e.shown.displayed,
      e.shown.indent ++ e.shown.marker], '\n' ∉ line := by
    simp only [List.forall_mem_cons]
    exact ⟨hfirst, hsecond, hthird, fun _ hmem => absurd hmem List.not_mem_nil⟩
  rw [chars_snippet]
  exact {
    count_eq := count_writeLines hlines
    ends := suffix_writeLines (List.cons_ne_nil _ _)
    splitOn_eq := ⟨_, splitOn_writeLines hlines, MarkedLine.isMarkerLine hordered⟩
    not_mem := by
      intro c hc hmem
      -- Of the four, the tab was expanded and the others are boundaries.
      rcases hclean c hmem with ⟨htab, hboundary⟩
      simp only [List.mem_cons, List.not_mem_nil, or_false] at hc
      rcases hc with rfl | rfl | rfl | rfl
      · exact htab rfl
      · exact absurd hboundary (by decide)
      · exact absurd hboundary (by decide)
      · exact absurd hboundary (by decide) }

/-- A headline has one line, with colour and without, if its place and its words have
    no line feed. -/
theorem isOneLine_headline {place : Styled}
    (hplace : ∀ cs, Piece.text cs ∈ place → '\n' ∉ cs) (htext : '\n' ∉ message.text.toList)
    (colored : Bool) : IsOneLine ((message.headline place).chars colored) := by
  -- All but the line feed at the end, over which the last style is off again.
  let front : Styled := .style .bold :: (place ++ message.label ++ [.style .reset])
  have hcut : message.headline place = front ++ [.text ['\n']] := by
    simp only [front, headline, List.append_assoc, List.cons_append, List.nil_append]
  have hfront : '\n' ∉ front.chars colored := by
    refine Styled.not_mem_chars (fun cs hmem => ?_) fun _ => Style.lineFeed_not_mem_code
    simp only [front, label, List.mem_cons, List.mem_append, List.not_mem_nil, reduceCtorEq,
      Piece.text.injEq, or_false, false_or] at hmem
    -- The front has the texts of the place, the label and the words.
    rcases hmem with hmem | rfl | rfl
    · exact hplace cs hmem
    · rw [List.mem_append, not_or]
      exact ⟨message.kind.isWording_label.lineFeed_not_mem, by decide⟩
    · exact htext
  have hline : ∀ line ∈ [front.chars colored], '\n' ∉ line := List.forall_mem_singleton.mpr hfront
  have hchars : (message.headline place).chars colored = writeLines [front.chars colored] := by
    rw [hcut, Styled.chars_append]
    simp only [writeLines, List.flatMap_singleton]
    rfl
  rw [hchars]
  exact {
    count_eq := count_writeLines hline
    ends := suffix_writeLines (List.cons_ne_nil _ _) }

/-- A message can be rendered exactly if nothing is to be shown of a source or its span
    is a place there. -/
theorem isSome_render?_iff_fitsIn (message : Message) (terminal : Terminal) (options : Options) :
    (message.render? terminal options).isSome = true ↔
      ∀ source, message.source = some source → options.snippet = true →
        message.span.FitsIn source.chars := by
  rw [Option.isSome_iff_ne_none, ne_eq, render?_eq_none_iff, not_exists]
  refine forall_congr' fun source => ?_
  rw [not_and, not_and, Excerpt.ofSpan?_eq_none_iff, not_not]

theorem isBlock_of_styled? {source : Source} {styled : Styled} {width : Nat}
    (h : message.styled? true width = some styled) (hsource : message.source = some source)
    (hpath : '\n' ∉ source.displayPath.toList) (htext : '\n' ∉ message.text.toList) :
    ∃ e, Excerpt.ofSpan? source.chars message.span width = some e ∧
      message.IsBlock source.displayPath e (styled.chars false) := by
  -- With a source and a snippet only the third shape is left.
  rcases styled?_cases h with ⟨hnone, -⟩ | ⟨_, -, hsnippet, -⟩ | ⟨source', e, hsource', -, he, rfl⟩
  · rw [hsource] at hnone
    exact absurd hnone (Option.some_ne_none source)
  · exact absurd hsnippet Bool.noConfusion
  · rw [hsource, Option.some.injEq] at hsource'
    subst hsource'
    exact ⟨e, he, isBlock_snippet he hpath htext⟩

theorem isOneLine_of_styled? {styled : Styled} {withSnippet : Bool} {width : Nat}
    (h : message.styled? withSnippet width = some styled)
    (hshape : message.source = none ∨ withSnippet = false)
    (hpath : ∀ source, message.source = some source → '\n' ∉ source.displayPath.toList)
    (htext : '\n' ∉ message.text.toList) (colored : Bool) :
    IsOneLine (styled.chars colored) := by
  rcases styled?_cases h with ⟨-, rfl⟩ | ⟨source, hsource, -, rfl⟩ |
    ⟨source, _, hsource, hsnippet, -, -⟩
  · exact isOneLine_headline (fun _ hmem => absurd hmem List.not_mem_nil) htext colored
  · refine isOneLine_headline (fun cs hmem => ?_) htext colored
    rw [placeOfPath, List.mem_singleton, Piece.text.injEq] at hmem
    rw [hmem, List.mem_append, not_or]
    exact ⟨hpath source hsource, by decide⟩
  · -- The third shape is ruled out by what is missing.
    rw [hsource, hsnippet] at hshape
    rcases hshape with hnone | hfalse
    · exact absurd hnone (Option.some_ne_none source)
    · exact absurd hfalse Bool.noConfusion

/-- The lines of a message whose path and words have one each. It can be rendered exactly
    if its span is a place in its source, or if nobody asks where that is. With a source
    and a snippet, and without colour, it has three lines then, with the marker under what
    is marked, on terminals of any width. Without a source or without a snippet it has
    one. -/
theorem lines_of_render? (terminal : Terminal) (options : Options)
    (htext : '\n' ∉ message.text.toList)
    (hpath : ∀ source, message.source = some source → '\n' ∉ source.displayPath.toList) :
    ((message.render? terminal options).isSome = true ↔
      ∀ source, message.source = some source → options.snippet = true →
        message.span.FitsIn source.chars) ∧
    ∀ text, message.render? terminal options = some text →
      (∀ source, message.source = some source → options.snippet = true →
        terminal.colored = false →
        ∃ e, Excerpt.ofSpan? source.chars message.span terminal.width = some e ∧
          message.IsBlock source.displayPath e text.toList) ∧
      (message.source = none ∨ options.snippet = false → IsOneLine text.toList) := by
  refine ⟨isSome_render?_iff_fitsIn message terminal options, fun text h => ?_⟩
  rcases Option.map_eq_some_iff.mp h with ⟨styled, hstyled, rfl⟩
  rw [Styled.write, String.toList_ofList]
  constructor
  · intro source hsource hsnippet hcolored
    -- With a snippet: three lines.
    rw [hsnippet] at hstyled
    rw [hcolored]
    exact isBlock_of_styled? hstyled hsource (hpath source hsource) htext
  · intro hshape
    -- Without a source or a snippet: one line.
    exact isOneLine_of_styled? hstyled hshape hpath htext terminal.colored

/-- A pair ends the first line, and the second one begins with a tab and ends with a
    paragraph separator. -/
def separatedSource : Source :=
  { index := 0, absolutePath := "/f", displayPath := "f"
    contents := "x\r\n\tlonger line\u2029y" }

/-- The span goes on into the third line. On a terminal of eight columns the second line
    is cut at its left. -/
theorem lines_of_render?_separated :
    let message : Message :=
      { source := some separatedSource, span := ⟨11, 8⟩, text := "here", kind := .warning }
    let terminal : Terminal := { interactive := true, colored := false, width := 8 }
    let block := "f:2:8: warning: here\n... line\n    ~~~~\n"
    '\n' ∉ message.text.toList ∧ '\n' ∉ separatedSource.displayPath.toList ∧
      message.render? terminal { snippet := true } = some block ∧
      (∃ e, Excerpt.ofSpan? separatedSource.chars message.span 8 = some e ∧
        message.IsBlock "f" e block.toList) ∧
      message.render? terminal { snippet := false } = some "f: warning: here\n" ∧
      IsOneLine "f: warning: here\n".toList := by
  intro message terminal block
  have htext : '\n' ∉ message.text.toList := by decide
  have hdisplay : '\n' ∉ separatedSource.displayPath.toList := by decide
  have hpath (source : Source) (h : message.source = some source) :
      '\n' ∉ source.displayPath.toList := by
    rw [← Option.some.inj h]
    exact hdisplay
  have hblock : message.render? terminal { snippet := true } = some block := by decide
  have hline : message.render? terminal { snippet := false } = some "f: warning: here\n" := by
    decide
  -- The same message with a snippet and without.
  have hlines := (lines_of_render? terminal { snippet := true } htext hpath).2 block hblock
  have hone := (lines_of_render? terminal { snippet := false } htext hpath).2 _ hline
  exact ⟨htext, hdisplay, hblock, hlines.1 separatedSource rfl rfl rfl, hline,
    hone.2 (Or.inr rfl)⟩

end Message

end Diagnostics
