import Diagnostics.Proofs.Color.Escapes
import Diagnostics.Proofs.Excerpt.Characters
import Diagnostics.Proofs.Sink.Wording

/-!
# Messages with Colour and Without

A message that holds no escape character is rendered as clean styled text. Its
own words are clean, and everything that rendering adds to them is: paths,
labels and numbers, the excerpt with its blanks and dots, and the marker. What
is written with colour is therefore what is written without, with escapes in
it.

The closing words of a sink are not styled at all, and it shows in the text
which they are, so no colour can be lost or gained where they stand.

## Main definitions

* `Message.IsClean`: No escape character in what a message holds.
* `Counterpart`: A text of a coloured run beside that of the plain run.

## Theorems

* `Message.isClean_of_styled?`: A clean message is clean styled text.
* `Message.counterpart_of_styled?`: The two texts of a message.
* `counterpart_self`: Closing words are their own counterparts.
-/

namespace Diagnostics

namespace Styled

theorem isClean_nil : IsClean [] :=
  fun _ hmem => absurd hmem List.not_mem_nil

theorem isClean_text_cons {cs : List Char} {styled : Styled} :
    IsClean (.text cs :: styled) ↔ escapeChar ∉ cs ∧ styled.IsClean := by
  unfold IsClean
  simp only [List.mem_cons, Piece.text.injEq, forall_eq_or_imp]

theorem isClean_style_cons {escape : Style} {styled : Styled} :
    IsClean (.style escape :: styled) ↔ styled.IsClean := by
  unfold IsClean
  simp only [List.mem_cons, reduceCtorEq, false_or]

end Styled

/-- Nothing that a message may show has an escape character in it. -/
structure Message.IsClean (message : Message) : Prop where
  text : escapeChar ∉ message.text.toList
  path : ∀ source, message.source = some source → escapeChar ∉ source.displayPath.toList
  contents : ∀ source, message.source = some source → escapeChar ∉ source.chars

theorem IsWording.escapeChar_not_mem {text : String} (h : IsWording text) :
    escapeChar ∉ text.toList :=
  h.not_mem (by decide) (by decide)

namespace Message

/-- What an excerpt of a clean text shows is clean, in all of its parts. -/
theorem escapeChar_not_mem_shown {cs : List Char} {span : Span} {width : Nat} {e : Excerpt}
    (h : Excerpt.ofSpan? cs span width = some e) (hclean : escapeChar ∉ cs) :
    escapeChar ∉ e.shown.before ∧ escapeChar ∉ e.shown.marked ∧ escapeChar ∉ e.shown.after ∧
      escapeChar ∉ e.shown.indent ∧ escapeChar ∉ e.shown.marker := by
  have hshown : escapeChar ∉ e.shown.chars := by
    intro hmem
    -- What is shown is a dot of an ellipsis, a blank for a tab, or of the text itself.
    rcases Excerpt.mem_chars_shown h hmem with hdot | hblank | ⟨hmem, -, -⟩
    · exact absurd hdot (by decide)
    · exact absurd hblank (by decide)
    · exact hclean hmem
  have hunder : escapeChar ∉ e.shown.indent ++ e.shown.marker :=
    e.shown.not_mem_under (by decide) (by decide) (by decide)
  rw [List.mem_append, not_or] at hunder
  -- The parts are slices of the line, and what stands under it is written in two parts.
  exact ⟨fun hmem => hshown (List.mem_of_mem_take hmem),
    fun hmem => hshown (List.mem_of_mem_take (List.mem_of_mem_drop hmem)),
    fun hmem => hshown (List.mem_of_mem_drop hmem), hunder⟩

/-- The three shapes of a clean message are clean. -/
theorem isClean_of_styled? {message : Message} (hclean : message.IsClean) {withSnippet : Bool}
    {width : Nat} {styled : Styled} (h : message.styled? withSnippet width = some styled) :
    styled.IsClean := by
  have hkind := message.kind.isWording_label.escapeChar_not_mem
  have htext := hclean.text
  have hcolon : escapeChar ∉ [':', ' '] := by decide
  have hfeed : escapeChar ∉ ['\n'] := by decide
  -- By the shape. A path or an excerpt is clean because its source is, and numbers and
  -- labels are words.
  rcases styled?_cases h with ⟨-, rfl⟩ | ⟨source, hsource, -, rfl⟩ |
    ⟨source, e, hsource, -, he, rfl⟩
  · simp only [headline, label, List.cons_append, List.nil_append, Styled.isClean_style_cons,
      Styled.isClean_text_cons, List.mem_append, not_or]
    exact ⟨⟨hkind, hcolon⟩, htext, hfeed, Styled.isClean_nil⟩
  · have hpath := hclean.path source hsource
    simp only [headline, placeOfPath, label, List.cons_append, List.nil_append,
      Styled.isClean_style_cons, Styled.isClean_text_cons, List.mem_append, not_or]
    exact ⟨⟨hpath, hcolon⟩, ⟨hkind, hcolon⟩, htext, hfeed, Styled.isClean_nil⟩
  · have hpath := hclean.path source hsource
    rcases escapeChar_not_mem_shown he (hclean.contents source hsource) with
      ⟨hbefore, hmarked, hafter, hindent, hmarker⟩
    have hline := (isWording_toString e.line).escapeChar_not_mem
    have hcolumn := (isWording_toString e.column).escapeChar_not_mem
    have hne : escapeChar ≠ ':' := by decide
    simp only [snippet, placeOfExcerpt, label, List.cons_append, List.nil_append,
      Styled.isClean_style_cons, Styled.isClean_text_cons, List.mem_append, List.mem_cons,
      not_or]
    simp only [List.mem_cons, not_or] at hcolon hfeed
    exact ⟨⟨⟨⟨hpath, hne, hline⟩, hne, hcolumn⟩, hcolon⟩, ⟨hkind, hcolon⟩, htext, hfeed,
      hbefore, hmarked, hafter, hfeed, hindent, hmarker, hfeed, Styled.isClean_nil⟩

end Message

/-- A text of a coloured run, beside that of the same run without colour. The
    second is the first without its orders and has no escape character, and
    where one of them is a notice or a summary they are the same. -/
structure Counterpart (colored plain : String) : Prop where
  stripped : stripEscapes colored.toList = plain.toList
  clean : escapeChar ∉ plain.toList
  same_of_closing : IsLimitNotice colored ∨ IsSummary colored ∨ IsLimitNotice plain ∨
    IsSummary plain → colored = plain

/-- Closing words are written without style. -/
theorem counterpart_self {text : String} (h : IsLimitNotice text ∨ IsSummary text) :
    Counterpart text text := by
  have hclean : escapeChar ∉ text.toList := by
    rcases h with ⟨counts, rfl⟩ | ⟨counts, rfl⟩
    · exact not_mem_counts_append counts (by decide) (by decide) (by decide)
    · exact not_mem_counts_append counts (by decide) (by decide) (by decide)
  exact {
    stripped := stripEscapes_of_not_mem hclean
    clean := hclean
    same_of_closing := fun _ => rfl }

/-- A clean message with colour is the same message without, and escapes. -/
theorem Message.counterpart_of_styled? {message : Message} (hclean : message.IsClean)
    {terminal : Terminal} {options : Options} {styled : Styled}
    (h : message.styled? options.snippet terminal.width = some styled) :
    Counterpart (styled.write true) (styled.write false) := by
  have hstyled := isClean_of_styled? hclean h
  have htext (colored : Bool) : message.render? { terminal with colored } options
      = some (styled.write colored) := by
    rw [render?, h, Option.map_some]
  -- Both texts name a kind, which no notice and no summary does.
  have hcolored := not_closing_of_render? (htext true)
  have hplain := not_closing_of_render? (htext false)
  exact {
    stripped := by
      rw [Styled.write, Styled.write, String.toList_ofList, String.toList_ofList,
        Styled.stripEscapes_chars hstyled]
    clean := by
      rw [Styled.write, String.toList_ofList]
      exact Styled.escapeChar_not_mem hstyled
    same_of_closing := by
      rintro (hnotice | hsummary | hnotice | hsummary)
      · exact absurd hnotice hcolored.1
      · exact absurd hsummary hcolored.2
      · exact absurd hnotice hplain.1
      · exact absurd hsummary hplain.2 }

end Diagnostics
