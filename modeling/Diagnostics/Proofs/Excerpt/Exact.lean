import Diagnostics.Excerpt
import Diagnostics.Proofs.Excerpt.Window
import Diagnostics.Proofs.Text.Columns
import Diagnostics.Proofs.Text.Position

/-!
# What an Excerpt Shows

A span that fits a text cuts it, together with the start of the line it begins
on, into four pieces: the opening, which ends with a boundary, the lead, which
has none, what the span covers, and the rest. `ofSpan?_append` gives the
excerpt for such pieces, and `exists_pieces` says that there are always such
pieces, so the two together are all that is ever needed of the definition.

The end of the marker is measured over everything the span covers, also where
that runs on into further lines. `shownLine_eq` is the reason why this comes out
right: past the end of the line the measurement only grows, and drawing it back
in gives the end of the line, which is where the covered part of the line ends.

## Main definitions

* `shownLine`: The marked line that pieces of a text give, before any cut.
* `Shows`: An excerpt of a line that is not cut.

## Theorems

* `exists_pieces`: A span that fits cuts its text into pieces.
* `ofSpan?_append`: The excerpt for given pieces.
* `exists_ofSpan?`: A span that fits has an excerpt.
* `exists_pieces_of_ofSpan?`: And the excerpt is that of the pieces.
* `fitsIn_of_ofSpan?`: Only a span that fits has an excerpt.
* `shownLine_eq`: What is marked is the covered part of the line.
* `exact_of_fits_width`: An excerpt that is not cut is the line as it is.
-/

namespace Diagnostics

open Text

namespace Excerpt

/-- The marked line for a span that covers `covered`, where `lead` is what
    comes before it on its line. -/
def shownLine (lead covered after : List Char) : MarkedLine :=
  MarkedLine.ofBounds (expandTabs (lineText (lead ++ (covered ++ after)))) (expandedWidth lead)
    (expandedWidth (lead ++ covered))

/-- An excerpt that shows all of a line: where on it the span begins, and the
    line cut there and at the end of the span. -/
structure Shows (e : Excerpt) (column : Nat) (lead upto line : List Char) : Prop where
  column_eq : e.column = column
  before_eq : e.shown.before = expandTabs lead
  marked_eq : e.shown.before ++ e.shown.marked = expandTabs upto
  line_eq : e.shown.displayed = expandTabs line
  indent_eq : e.shown.indent = List.replicate e.shown.before.length ' '
  marker_eq : e.shown.marker = if 1 < e.shown.marked.length
    then List.replicate e.shown.marked.length '~' else ['^']

theorem ofSpan?_append (opening lead covered after : List Char) (width : Nat)
    (hopening : EndsLine opening) (hlead : IsPlain lead) :
    ofSpan? (opening ++ lead ++ (covered ++ after))
        ⟨byteLength (opening ++ lead), byteLength covered⟩ width
      = some { line := (({} : Cursor).read opening).lineCount + 1
               column := byteLength lead
               shown := (shownLine lead covered after).fit width } := by
  simp only [ofSpan?, splitAt?_byteLength_append, position_append opening lead hopening hlead,
    shownLine, Option.bind_eq_bind, Option.bind_some, Option.pure_def]

theorem exists_pieces {cs : List Char} {span : Span} (h : span.FitsIn cs) :
    ∃ opening lead covered after, cs = opening ++ lead ++ (covered ++ after) ∧
      span = ⟨byteLength (opening ++ lead), byteLength covered⟩ ∧
      EndsLine opening ∧ IsPlain lead := by
  rcases h with ⟨before, covered, after, rfl, hstart, hlength⟩
  rcases exists_opening before with ⟨opening, lead, rfl, hopening, hlead⟩
  refine ⟨opening, lead, covered, after, List.append_assoc _ _ _, ?_, hopening, hlead⟩
  rw [hstart, hlength]

/-- A span that fits a text has an excerpt on every terminal. -/
theorem exists_ofSpan? {cs : List Char} {span : Span} (h : span.FitsIn cs) (width : Nat) :
    ∃ e, ofSpan? cs span width = some e := by
  rcases exists_pieces h with ⟨opening, lead, covered, after, rfl, rfl, hopening, hlead⟩
  exact ⟨_, ofSpan?_append opening lead covered after width hopening hlead⟩

theorem fitsIn_of_ofSpan? {cs : List Char} {span : Span} {width : Nat} {e : Excerpt}
    (h : ofSpan? cs span width = some e) : span.FitsIn cs := by
  unfold ofSpan? at h
  simp only [Option.bind_eq_bind, Option.bind_eq_some_iff, Prod.exists] at h
  rcases h with ⟨before, rest, hbefore, covered, after, hcovered, -⟩
  rcases splitAt?_eq_some_iff.mp hbefore with ⟨rfl, hstart⟩
  rcases splitAt?_eq_some_iff.mp hcovered with ⟨rfl, hlength⟩
  exact ⟨before, covered, after, (List.append_assoc _ _ _).symm, hstart, hlength⟩

/-- Every excerpt is that of some pieces. -/
theorem exists_pieces_of_ofSpan? {cs : List Char} {span : Span} {width : Nat} {e : Excerpt}
    (h : ofSpan? cs span width = some e) :
    ∃ opening lead covered after, cs = opening ++ lead ++ (covered ++ after) ∧
      span = ⟨byteLength (opening ++ lead), byteLength covered⟩ ∧
      EndsLine opening ∧ IsPlain lead ∧ e.shown = (shownLine lead covered after).fit width := by
  rcases exists_pieces (fitsIn_of_ofSpan? h) with
    ⟨opening, lead, covered, after, rfl, rfl, hopening, hlead⟩
  rw [ofSpan?_append opening lead covered after width hopening hlead, Option.some.injEq] at h
  refine ⟨opening, lead, covered, after, rfl, rfl, hopening, hlead, ?_⟩
  rw [← h]

/-- Nothing but a span that misses its text can do without an excerpt. -/
theorem ofSpan?_eq_none_iff {cs : List Char} {span : Span} {width : Nat} :
    ofSpan? cs span width = none ↔ ¬ span.FitsIn cs := by
  constructor
  · intro hnone hfits
    rcases exists_ofSpan? hfits width with ⟨e, he⟩
    rw [hnone] at he
    exact absurd he.symm (Option.some_ne_none e)
  · intro hfits
    exact Option.eq_none_iff_forall_ne_some.mpr fun e he => hfits (fitsIn_of_ofSpan? he)

/-- Measuring past the end of a line and drawing the result back in gives the
    end of what is covered of the line. -/
theorem min_expandedWidth (lead covered after : List Char) :
    min (expandedWidth (lead ++ covered)) (expandedWidth (lead ++ lineText (covered ++ after)))
      = expandedWidth (lead ++ lineText covered) := by
  rcases exists_lineText_append covered after with ⟨more, hline, hcase⟩
  rcases exists_closing covered with ⟨closing, hcovered, -⟩
  rw [hline]
  rcases hcase with hall | rfl
  · -- Everything covered is on the line, which goes on by `more`.
    rw [hall, ← List.append_assoc]
    exact Nat.min_eq_left (expandedWidth_le_append _ _)
  · -- The line ends inside what is covered, and the measurement goes on.
    rw [List.append_nil]
    have hle := expandedWidth_le_append (lead ++ lineText covered) closing
    rw [List.append_assoc, ← hcovered] at hle
    exact Nat.min_eq_right hle

theorem shownLine_eq (lead covered after : List Char) (hlead : IsPlain lead) :
    shownLine lead covered after
      = { chars := expandTabs (lead ++ lineText (covered ++ after))
          start := expandedWidth lead
          stop := expandedWidth (lead ++ lineText covered) } := by
  -- Both bounds are drawn back in: the start stays, being on the line, and the
  -- end comes back to where the covered part of the line ends.
  have hstart := expandedWidth_le_append lead (lineText (covered ++ after))
  have hstop := expandedWidth_le_append lead (lineText covered)
  simp only [shownLine, MarkedLine.ofBounds, lineText_append lead _ hlead, length_expandTabs,
    min_expandedWidth, MarkedLine.mk.injEq, true_and]
  rw [Nat.min_eq_left hstart]
  exact ⟨rfl, Nat.max_eq_left hstop⟩

theorem ordered_shownLine (lead covered after : List Char) :
    (shownLine lead covered after).Ordered :=
  MarkedLine.ordered_ofBounds _ _ _

/-- What is marked of an excerpt lies in the line that it shows, cut or not. -/
theorem ordered_of_ofSpan? {cs : List Char} {span : Span} {width : Nat} {e : Excerpt}
    (h : ofSpan? cs span width = some e) : e.shown.Ordered := by
  rcases exists_pieces_of_ofSpan? h with ⟨opening, lead, covered, after, -, -, -, -, hshown⟩
  rw [hshown]
  exact MarkedLine.ordered_fit (ordered_shownLine lead covered after) width

theorem before_shownLine (lead covered after : List Char) (hlead : IsPlain lead) :
    (shownLine lead covered after).before = expandTabs lead := by
  rw [shownLine_eq lead covered after hlead, MarkedLine.before, take_expandTabs_append]

theorem before_append_marked_shownLine (lead covered after : List Char) (hlead : IsPlain lead) :
    (shownLine lead covered after).before ++ (shownLine lead covered after).marked
      = expandTabs (lead ++ lineText covered) := by
  rw [MarkedLine.before_append_marked _ (ordered_shownLine lead covered after),
    shownLine_eq lead covered after hlead]
  -- What is marked of the line is a first part of it, and expansion does not look back.
  rcases exists_lineText_append covered after with ⟨more, hline, -⟩
  simp only [hline, ← List.append_assoc]
  exact take_expandTabs_append _ _

theorem displayed_shownLine (lead covered after : List Char) (hlead : IsPlain lead) :
    (shownLine lead covered after).displayed
      = expandTabs (lead ++ lineText (covered ++ after)) := by
  rw [MarkedLine.displayed_eq_chars _ (ordered_shownLine lead covered after),
    shownLine_eq lead covered after hlead]

/-- The last offset that a span and the line it begins on have in common. -/
theorem min_byteLength (before covered after : List Char) :
    min (byteLength (before ++ covered)) (byteLength (before ++ lineText (covered ++ after)))
      = byteLength (before ++ lineText covered) := by
  rcases exists_lineText_append covered after with ⟨more, hline, hcase⟩
  rcases exists_closing covered with ⟨closing, hcovered, -⟩
  have hlength := congrArg byteLength hcovered
  rw [byteLength_append] at hlength
  rw [hline]
  rcases hcase with hall | rfl
  · -- The span ends on the line.
    rw [hall]
    simp only [byteLength_append]
    omega
  · -- The line ends inside the span.
    simp only [byteLength_append, byteLength_nil]
    omega

/-- A piece of the line around a place, from the start of the line on. -/
theorem slice?_of_line (opening lead : List Char) {text part rest : List Char}
    (h : text = part ++ rest) :
    slice? (byteLength opening) (byteLength (opening ++ lead ++ part) - byteLength opening)
      (opening ++ lead ++ text) = some (lead ++ part) := by
  have htext : opening ++ lead ++ text = opening ++ (lead ++ part ++ rest) := by
    rw [h, List.append_assoc, List.append_assoc]
  rw [htext, List.append_assoc, byteLength_append opening, Nat.add_sub_cancel_left]
  exact slice?_append _ _ _

/-- The pieces of a line that a span begins on: what is in front of the place,
    what the span and the line have in common, and the whole line. -/
theorem slices_of_line (opening lead covered after : List Char) :
    let cs := opening ++ lead ++ (covered ++ after)
    let span : Span := ⟨byteLength (opening ++ lead), byteLength covered⟩
    let stop := byteLength (opening ++ lead ++ lineText (covered ++ after))
    slice? (byteLength opening) (span.start - byteLength opening) cs = some lead ∧
      slice? (byteLength opening) (min span.stop stop - byteLength opening) cs =
        some (lead ++ lineText covered) ∧
      slice? (byteLength opening) (stop - byteLength opening) cs =
        some (lead ++ lineText (covered ++ after)) := by
  intro cs span stop
  rcases exists_closing covered with ⟨beyond, hcovered, -⟩
  rcases exists_closing (covered ++ after) with ⟨closing, hrest, -⟩
  refine ⟨?_, ?_, slice?_of_line opening lead hrest⟩
  · have h := slice?_of_line opening lead (List.nil_append (covered ++ after)).symm
    rwa [List.append_nil, List.append_nil] at h
  · -- What they have in common is the covered part of the line.
    rw [Span.stop, ← byteLength_append, min_byteLength]
    have hpart : covered ++ after = lineText covered ++ (beyond ++ after) := by
      rw [← List.append_assoc, ← hcovered]
    exact slice?_of_line opening lead hpart

/-- An excerpt that is not cut, on its own terms: the line around the place
    that the span begins at, cut at the place and at the end of the span. -/
theorem exact_of_fits_width {cs : List Char} {span : Span} (hfits : span.FitsIn cs) :
    ∃ ls le lead upto line,
      IsLineStart cs span.start ls ∧ IsLineEnd cs span.start le ∧
      slice? ls (span.start - ls) cs = some lead ∧
      slice? ls (min span.stop le - ls) cs = some upto ∧
      slice? ls (le - ls) cs = some line ∧
      ∀ width, width = 0 ∨ (expandTabs line).length ≤ width →
        ∃ e, ofSpan? cs span width = some e ∧ e.Shows (span.start - ls) lead upto line := by
  rcases exists_pieces hfits with ⟨opening, lead, covered, after, rfl, rfl, hopening, hlead⟩
  rcases slices_of_line opening lead covered after with ⟨hfront, hcommon, hwhole⟩
  have hordered := ordered_shownLine lead covered after
  -- The line begins where its opening ends, and ends with the first boundary after the place.
  refine ⟨byteLength opening, byteLength (opening ++ lead ++ lineText (covered ++ after)),
    lead, lead ++ lineText covered, lead ++ lineText (covered ++ after),
    isLineStart_append opening lead _ hopening hlead, isLineEnd_append _ _, hfront, hcommon,
    hwhole, ?_⟩
  -- Any such width leaves the line as it is.
  intro width hwidth
  have hfit : (shownLine lead covered after).fit width = shownLine lead covered after := by
    refine MarkedLine.fit_of_le ?_
    rw [← MarkedLine.displayed_eq_chars _ hordered, displayed_shownLine lead covered after hlead]
    exact hwidth
  refine ⟨_, ofSpan?_append opening lead covered after width hopening hlead, ?_⟩
  rw [hfit]
  refine ⟨?_, before_shownLine lead covered after hlead,
    before_append_marked_shownLine lead covered after hlead,
    displayed_shownLine lead covered after hlead, MarkedLine.indent_eq _ hordered,
    MarkedLine.marker_eq _ hordered⟩
  rw [byteLength_append, Nat.add_sub_cancel_left]

/-- Three lines, the second of which begins with a tab. -/
def tabbed : List Char :=
  ['x', '\r', '\n', '\t', 'é', 'a', '\u2028', 'b', 'c']

/-- A mark that begins behind a tab and a wide character and runs on past the
    end of its line. -/
theorem exact_across_lines :
    (⟨6, 5⟩ : Span).FitsIn tabbed ∧
      ∃ ls le lead upto line, IsLineStart tabbed 6 ls ∧ IsLineEnd tabbed 6 le ∧
        slice? ls (6 - ls) tabbed = some lead ∧
        slice? ls (min 11 le - ls) tabbed = some upto ∧
        slice? ls (le - ls) tabbed = some line ∧
        ∀ width, width = 0 ∨ (expandTabs line).length ≤ width →
          ∃ e, ofSpan? tabbed ⟨6, 5⟩ width = some e ∧ e.Shows (6 - ls) lead upto line := by
  have hfits : (⟨6, 5⟩ : Span).FitsIn tabbed :=
    ⟨['x', '\r', '\n', '\t', 'é'], ['a', '\u2028', 'b'], ['c'], rfl, by decide, by decide⟩
  exact ⟨hfits, exact_of_fits_width hfits⟩

end Excerpt

end Diagnostics
