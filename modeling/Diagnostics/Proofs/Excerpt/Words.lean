import Diagnostics.Excerpt.Words
import Diagnostics.Proofs.Excerpt.Exact
import Diagnostics.Proofs.Text.Order
import Diagnostics.Render

/-!
# No Step out of Range

A text that a machine can hold is far shorter than its words could count. With
tabs written out it is at most twice as wide as it has bytes, and the largest
number on the way to an excerpt is the sum of two columns, so that there is room
to spare in every sum. What does not follow from sizes is the order of things:
that the window lies in the line, that the bounds of its clamp have not crossed,
that the mark begins before it ends after every cut. Each of these is a fact of
`Proofs.Excerpt.Window` or of `Proofs.Excerpt.Parts`, and here they meet the steps
that need them.

So an excerpt in words is an excerpt. The two fail alike as well, for whatever
is cut out of the text before anything is measured is cut at the ends of the
span. That leaves one reason why a message cannot be rendered: it is to be shown
with its line, and an end of its span misses the text.

## Theorems

* `windowStartInWords?_eq`: The window is placed without leaving the words.
* `MarkedLine.clipInWords?_eq`: A line is cut without leaving it.
* `MarkedLine.parts?_eq`, `MarkedLine.ofParts_eq`: The parts of an ordered line are
  there, and they are all of it.
* `Excerpt.ofSpanInWords?_append`: Every step for a span that fits.
* `Excerpt.ofSpanInWords?_eq`: The same excerpt for every span.
* `Message.render?_fails_iff_misses`: When a message cannot be rendered.
-/

namespace Diagnostics

open Text

namespace Word

theorem ofNat?_of_lt {n : Nat} (h : n < 2 ^ 64) : ofNat? n = some n :=
  if_pos h

theorem ofInt?_bind_of_lt {α : Type} {n : Int} (hlow : -2 ^ 63 ≤ n) (hhigh : n < 2 ^ 63)
    (next : Int → Option α) : (ofInt? n >>= next) = next n := by
  rw [ofInt?, if_pos ⟨hlow, hhigh⟩]
  rfl

theorem sub?_of_le {a b : Nat} (h : b ≤ a) : sub? a b = some (a - b) :=
  if_pos h

end Word

theorem piece?_of_le {α : Type} {items : List α} {start stop : Nat} (h : start ≤ stop)
    (hstop : stop ≤ items.length) : piece? items start stop = some ((items.take stop).drop start) :=
  if_pos ⟨h, hstop⟩

theorem piece?_zero {α : Type} {items : List α} {stop : Nat} (hstop : stop ≤ items.length) :
    piece? items 0 stop = some (items.take stop) := by
  rw [piece?_of_le (Nat.zero_le _) hstop, List.drop_zero]

theorem piece?_length {α : Type} {items : List α} {start : Nat} (h : start ≤ items.length) :
    piece? items start items.length = some (items.drop start) := by
  rw [piece?_of_le h (Nat.le_refl _), List.take_length]

namespace Text

theorem pieceOf?_append (a b c : List Char) :
    pieceOf? (a ++ (b ++ c)) (byteLength a) (byteLength a + byteLength b) = some b := by
  rw [pieceOf?, Word.sub?_of_le (Nat.le_add_right _ _), Nat.add_sub_cancel_left]
  exact slice?_append a b c

theorem pieceOf?_zero (a b : List Char) : pieceOf? (a ++ b) 0 (byteLength a) = some a := by
  have h := pieceOf?_append [] a b
  rwa [List.nil_append, byteLength_nil, Nat.zero_add] at h

theorem pieceOf?_rest (a b : List Char) :
    pieceOf? (a ++ b) (byteLength a) (byteLength a + byteLength b) = some b := by
  have h := pieceOf?_append a b []
  rwa [List.append_nil] at h

/-- A line ends at a place of the text. -/
theorem pieceOf?_lineText (opening rest : List Char) :
    pieceOf? (opening ++ rest) (byteLength opening)
      (byteLength opening + byteLength (lineText rest)) = some (lineText rest) := by
  rcases exists_closing rest with ⟨closing, hrest, -⟩
  have h := pieceOf?_append opening (lineText rest) closing
  rwa [← hrest] at h

theorem byteLength_lineText_le (cs : List Char) : byteLength (lineText cs) ≤ byteLength cs := by
  rcases exists_closing cs with ⟨closing, hcs, -⟩
  have h := congrArg byteLength hcs
  rw [byteLength_append] at h
  omega

/-- A piece that is there ends at a place of the text. -/
theorem not_misses_of_pieceOf? {cs piece : List Char} {start stop : Nat}
    (h : pieceOf? cs start stop = some piece) : ¬ Misses cs stop := by
  rw [not_misses_iff]
  simp only [pieceOf?, slice?, Option.bind_eq_bind, Option.bind_eq_some_iff, Prod.exists,
    Option.pure_def, Option.some.injEq] at h
  -- The piece was found by its start and its length, which make the end.
  rcases h with ⟨length, hlength, before, rest, hbefore, covered, after, hcovered, rfl⟩
  rcases splitAt?_eq_some_iff.mp hbefore with ⟨rfl, hstart⟩
  rcases splitAt?_eq_some_iff.mp hcovered with ⟨rfl, hcovered⟩
  refine ⟨before ++ covered, after, (List.append_assoc _ _ _).symm, ?_⟩
  simp only [Word.sub?, Option.ite_none_right_eq_some, Option.some.injEq] at hlength
  rw [byteLength_append]
  omega

theorem length_le_byteLength (cs : List Char) : cs.length ≤ byteLength cs := by
  induction cs with
  | nil => exact Nat.le_refl _
  | cons c cs ih =>
      have hpos := c.utf8Size_pos
      rw [List.length_cons, byteLength_cons]
      omega

/-- A character takes a column, or the two of a tab. -/
theorem foldl_nextColumn_le (column : Nat) (cs : List Char) :
    cs.foldl nextColumn column ≤ column + 2 * cs.length := by
  induction cs generalizing column with
  | nil => exact Nat.le_refl _
  | cons c cs ih =>
      have hstep : nextColumn column c ≤ column + 2 := by
        unfold nextColumn tabWidth tabStop
        split <;> omega
      have hrest := ih (nextColumn column c)
      rw [List.foldl_cons, List.length_cons]
      omega

theorem expandedWidth_le (cs : List Char) : expandedWidth cs ≤ 2 * byteLength cs := by
  have h := foldl_nextColumn_le 0 cs
  have hlength := length_le_byteLength cs
  rw [expandedWidth]
  omega

theorem Cursor.lineCount_read_le (cursor : Cursor) (cs : List Char) :
    (cursor.read cs).lineCount ≤ cursor.lineCount + cs.length := by
  induction cs generalizing cursor with
  | nil => exact Nat.le_refl _
  | cons c cs ih =>
      have hrest := ih (cursor.advance c)
      rw [read, List.foldl_cons, ← read, List.length_cons]
      rcases cursor.advance_cases c with h | ⟨h, -⟩
      · omega
      · omega

end Text

/-- A wanted column pushed between two bounds that are in order. -/
theorem placed_eq {room : Int} (hroom : 0 ≤ room) (centred withContext : Int) :
    (do let offset ← Word.clamp? 0 room (if withContext < centred then withContext else centred)
        Word.toNat? offset)
      = some (max 0 (min (min centred withContext) room)).toNat := by
  have hpushed : Word.clamp? 0 room (if withContext < centred then withContext else centred)
      = some (max 0 (min (min centred withContext) room)) := by
    rw [Word.clamp?, if_pos hroom]
    congr 1
    omega
  rw [hpushed, Option.bind_eq_bind, Option.bind_some, Word.toNat?, if_pos (Int.le_max_left _ _)]

/-- The window is placed without leaving the words, and the bounds that it is
    pushed between are in order. -/
theorem windowStartInWords?_eq {length start stop width : Nat} (hlength : length < 2 ^ 62)
    (hstart : start ≤ stop) (hstop : stop ≤ length) (hwidth : width ≤ length) :
    windowStartInWords? length start stop width = some (windowStart length start stop width) := by
  have hfifth : Int.tdiv (width : Int) 5 = (width / 5 : Nat) := rfl
  -- No number on the way leaves the range from one length below zero to two above.
  have hstep : ∀ {n : Int} (next : Int → Option Nat), -length ≤ n → n ≤ 2 * length →
      (Word.ofInt? n >>= next) = next n :=
    fun next hlow hhigh => Word.ofInt?_bind_of_lt (by omega) (by omega) next
  unfold windowStartInWords? windowStart
  rw [hstep _ (by omega) (by omega), hstep _ (by omega) (by omega),
    hstep _ (by omega) (by omega), hstep _ (by omega) (by omega),
    hstep _ (by omega) (by omega), hstep _ (by omega) (by omega), hfifth,
    hstep _ (by omega) (by omega), hstep _ (by omega) (by omega)]
  exact placed_eq (by omega) _ _

namespace MarkedLine

theorem overwrite_of_length {edge : List Char} (h : edge.length = ellipsis.length) :
    overwrite edge = ellipsis := by
  rw [overwrite, h, List.take_length, ← h, List.drop_length, List.append_nil]

theorem elideLeftInWords?_eq (line : MarkedLine) :
    line.elideLeftInWords? = some line.elideLeft := by
  unfold elideLeftInWords? elideLeft
  by_cases h : ellipsis.length < line.chars.length
  · have hedge : (line.chars.take ellipsis.length).length = ellipsis.length := by
      rw [List.length_take]
      omega
    rw [if_pos h, if_pos h, piece?_zero (Nat.le_of_lt h), piece?_length (Nat.le_of_lt h)]
    simp only [Option.bind_eq_bind, Option.bind_some, Option.pure_def, overwrite_of_length hedge]
  · rw [if_neg h, if_neg h]

theorem elideRightInWords?_eq (line : MarkedLine) :
    line.elideRightInWords? = some line.elideRight := by
  unfold elideRightInWords? elideRight
  by_cases h : ellipsis.length < line.chars.length
  · -- The last three columns are there, and dots replace all of them.
    have hedge : (line.chars.drop (line.chars.length - ellipsis.length)).length
        = ellipsis.length := by
      rw [List.length_drop]
      omega
    rw [if_pos h, if_pos h, Word.sub?_of_le (Nat.le_of_lt h)]
    simp only [Option.bind_eq_bind, Option.bind_some]
    rw [piece?_zero (Nat.sub_le _ _), piece?_length (Nat.sub_le _ _)]
    simp only [Option.bind_some, Option.pure_def, overwrite_of_length hedge]
  · rw [if_neg h, if_neg h]

/-- A line is cut without leaving the words or the line. -/
theorem clipInWords?_eq {line : MarkedLine} {width : Nat} (hline : line.Ordered)
    (hlength : line.chars.length < 2 ^ 62) (hwidth : width ≤ line.chars.length) :
    line.clipInWords? width = some (line.clip width) := by
  have hwindow : line.windowOf width + width ≤ line.chars.length := windowStart_add_le hwidth
  unfold clipInWords?
  -- The window lies in the line, so that it can be cut out of it.
  rw [windowStartInWords?_eq hlength hline.start_le_stop hline.stop_le_length hwidth, ← windowOf]
  simp only [Option.bind_eq_bind, Option.bind_some]
  rw [Word.ofNat?_of_lt (by omega), Option.bind_some, piece?_of_le (Nat.le_add_right _ _) hwindow,
    Option.bind_some, List.drop_take, Nat.add_sub_cancel_left, clip_eq, shownFrom, window]
  by_cases hleft : 0 < line.windowOf width
  · rw [if_pos hleft, if_pos hleft, elideLeftInWords?_eq, Option.bind_some, elideRightInWords?_eq,
      ← apply_ite some]
  · rw [if_neg hleft, if_neg hleft, elideRightInWords?_eq, ← apply_ite some]

theorem fitInWords?_eq {line : MarkedLine} (hline : line.Ordered)
    (hlength : line.chars.length < 2 ^ 62) (width : Nat) :
    line.fitInWords? width = some (line.fit width) := by
  unfold fitInWords? fit
  by_cases hwidth : 0 < width ∧ width < line.chars.length
  · rw [if_pos hwidth, if_pos hwidth, clipInWords?_eq hline hlength (Nat.le_of_lt hwidth.2)]
  · rw [if_neg hwidth, if_neg hwidth]

/-- The parts of an ordered line are there, and there is nothing else to it. -/
theorem parts?_eq {line : MarkedLine} (hline : line.Ordered) :
    line.parts? = some (line.before, line.marked, line.after) := by
  have hstop := hline.stop_le_length
  unfold parts?
  rw [piece?_zero (Nat.le_trans hline.start_le_stop hstop),
    piece?_of_le hline.start_le_stop hstop, piece?_length hstop]
  rfl

theorem ofParts_eq {line : MarkedLine} (hline : line.Ordered) :
    ofParts line.before line.marked line.after = line := by
  have hchars := displayed_eq_chars line hline
  have hordered := hline.start_le_stop
  rw [displayed] at hchars
  rw [ofParts, hchars, length_before line hline, length_marked line hline,
    Nat.add_sub_cancel' hordered]

end MarkedLine

namespace Excerpt

theorem length_shownLine_le (lead covered after : List Char) :
    (shownLine lead covered after).chars.length ≤ 2 * byteLength (lead ++ (covered ++ after)) := by
  have hline := byteLength_lineText_le (lead ++ (covered ++ after))
  have hwidth := expandedWidth_le (lineText (lead ++ (covered ++ after)))
  rw [shownLine, MarkedLine.ofBounds, length_expandTabs]
  omega

/-- What is cut out of the text to measure the mark. A point takes what was cut
    out already. -/
theorem pieceOf?_upto (opening lead covered after : List Char) :
    (if 0 < byteLength covered
      then pieceOf? (opening ++ (lead ++ (covered ++ after))) (byteLength opening)
        (byteLength opening + byteLength lead + byteLength covered)
      else some lead) = some (lead ++ covered) := by
  by_cases hcovered : 0 < byteLength covered
  · have h := pieceOf?_append opening (lead ++ covered) after
    rw [List.append_assoc, byteLength_append, ← Nat.add_assoc] at h
    rw [if_pos hcovered, h]
  · have hnil : covered = [] := byteLength_eq_zero_iff.mp (Nat.eq_zero_of_not_pos hcovered)
    rw [if_neg hcovered, hnil, List.append_nil]

/-- Every step on the way to an excerpt, where the span fits a text that is not
    too long. -/
theorem ofSpanInWords?_append (opening lead covered after : List Char) (width : Nat)
    (hopening : EndsLine opening) (hlead : IsPlain lead)
    (hshort : byteLength (opening ++ lead ++ (covered ++ after)) < 2 ^ 60) :
    ofSpanInWords? (opening ++ lead ++ (covered ++ after))
        ⟨byteLength (opening ++ lead), byteLength covered⟩ width
      = some { line := (({} : Cursor).read opening).lineCount + 1
               column := byteLength lead
               shown := (shownLine lead covered after).fit width } := by
  have hordered := ordered_shownLine lead covered after
  -- All that is computed is bounded by the length of the text in bytes.
  have hlength := length_shownLine_le lead covered after
  have hnumber : (({} : Cursor).read opening).lineCount ≤ 0 + opening.length :=
    Cursor.lineCount_read_le {} opening
  have hopeninglength := length_le_byteLength opening
  have hline := byteLength_lineText_le (lead ++ (covered ++ after))
  have hfirst := expandedWidth_le lead
  have hlast := expandedWidth_le (lead ++ covered)
  have hbefore := pieceOf?_zero (opening ++ lead) (covered ++ after)
  have hrest := pieceOf?_rest opening (lead ++ (covered ++ after))
  have hplace := position_append opening lead hopening hlead
  simp only [byteLength_append, List.append_assoc]
    at hshort hlength hline hlast hbefore hrest hplace ⊢
  unfold ofSpanInWords?
  simp only
  -- The text before the span gives the line number and the column.
  rw [Word.ofNat?_of_lt (by omega), hbefore]
  simp only [Option.bind_eq_bind, Option.bind_some, hplace, byteLength_append]
  rw [Word.ofNat?_of_lt (by omega), Option.bind_some, Word.sub?_of_le (Nat.le_add_right _ _),
    Option.bind_some, Nat.add_sub_cancel_left]
  -- What follows the line start gives the line, and the two ends of the span its mark.
  rw [hrest, Option.bind_some, Word.ofNat?_of_lt (by omega), Option.bind_some,
    pieceOf?_lineText, Option.bind_some, pieceOf?_append, Option.bind_some, pieceOf?_upto,
    Option.bind_some, Word.ofNat?_of_lt (by omega), Option.bind_some,
    Word.ofNat?_of_lt (by omega), Option.bind_some, ← shownLine,
    MarkedLine.fitInWords?_eq hordered (by omega), Option.bind_some,
    MarkedLine.parts?_eq (MarkedLine.ordered_fit hordered width), Option.bind_some]
  rw [MarkedLine.ofParts_eq (MarkedLine.ordered_fit hordered width)]
  rfl

/-- A span whose excerpt is found in words fits the text. -/
theorem fitsIn_of_ofSpanInWords? {cs : List Char} {span : Span} {width : Nat} {e : Excerpt}
    (h : ofSpanInWords? cs span width = some e) : span.FitsIn cs := by
  simp only [ofSpanInWords?, Option.bind_eq_bind, Option.bind_eq_some_iff] at h
  -- Three steps matter: the end as a word, and the texts up to either end of the span.
  rcases h with
    ⟨stop, hstop, before, hbefore, -, -, -, -, -, -, -, -, -, -, lead, -, upto, hupto, -⟩
  have hend : stop = span.stop := by
    simp only [Word.ofNat?, Option.ite_none_right_eq_some, Option.some.injEq] at hstop
    exact hstop.2.symm
  refine Span.fitsIn_iff.mpr ⟨not_misses_of_pieceOf? hbefore, ?_⟩
  by_cases hlength : 0 < span.length
  · rw [if_pos hlength] at hupto
    exact hend ▸ not_misses_of_pieceOf? hupto
  · -- A point ends where it starts.
    rw [Span.stop, Nat.eq_zero_of_not_pos hlength]
    exact not_misses_of_pieceOf? hbefore

/-- Counted in words, every excerpt of a text that is not too long is the same,
    and those that are not there are not there either. -/
theorem ofSpanInWords?_eq {cs : List Char} (hshort : byteLength cs < 2 ^ 60) (span : Span)
    (width : Nat) : ofSpanInWords? cs span width = ofSpan? cs span width := by
  by_cases hfits : span.FitsIn cs
  · rcases exists_pieces hfits with ⟨opening, lead, covered, after, rfl, rfl, hopening, hlead⟩
    rw [ofSpanInWords?_append opening lead covered after width hopening hlead hshort,
      ofSpan?_append opening lead covered after width hopening hlead]
  · rw [Option.eq_none_iff_forall_ne_some.mpr fun e h => hfits (fitsIn_of_ofSpanInWords? h),
      ofSpan?_eq_none_iff.mpr hfits]

/-- A span that fits a text has an excerpt in words, and the mark of its line is
    in order and inside it. -/
theorem exists_ofSpanInWords? {cs : List Char} (hshort : byteLength cs < 2 ^ 60) {span : Span}
    (hfits : span.FitsIn cs) (width : Nat) :
    ∃ e, ofSpanInWords? cs span width = some e ∧ e.shown.Ordered := by
  rcases exists_pieces hfits with ⟨opening, lead, covered, after, rfl, rfl, hopening, hlead⟩
  exact ⟨_, ofSpanInWords?_append opening lead covered after width hopening hlead hshort,
    MarkedLine.ordered_fit (ordered_shownLine lead covered after) width⟩

end Excerpt

namespace Message

/-- A message cannot be rendered exactly if it is to be shown with its line and
    an end of its span misses the text. Nothing else can go wrong on the way to
    its line, on a terminal of any width. -/
theorem render?_fails_iff_misses (message : Message) (terminal : Terminal) (options : Options)
    (hshort : ∀ source, message.source = some source → byteLength source.chars < 2 ^ 60) :
    (message.render? terminal options = none ↔
      ∃ source, message.source = some source ∧ options.snippet = true ∧
        (Misses source.chars message.span.start ∨ Misses source.chars message.span.stop)) ∧
      ∀ source, message.source = some source →
        Excerpt.ofSpanInWords? source.chars message.span terminal.width
            = Excerpt.ofSpan? source.chars message.span terminal.width ∧
          (¬ Misses source.chars message.span.start → ¬ Misses source.chars message.span.stop →
            ∃ e, Excerpt.ofSpanInWords? source.chars message.span terminal.width = some e ∧
              e.shown.Ordered) := by
  constructor
  · -- Only an excerpt can be missing, and it is missing if the span does not fit.
    rw [render?_eq_none_iff]
    refine exists_congr fun source => and_congr_right fun _ => and_congr_right fun _ => ?_
    rw [← not_iff_not, not_or, ← Span.fitsIn_iff, ← ne_eq, Option.ne_none_iff_exists']
    exact ⟨fun ⟨e, he⟩ => Excerpt.fitsIn_of_ofSpan? he,
      fun hfits => Excerpt.exists_ofSpan? hfits terminal.width⟩
  · -- In words it is the same excerpt.
    intro source hsource
    have hlength := hshort source hsource
    refine ⟨Excerpt.ofSpanInWords?_eq hlength message.span terminal.width, fun hstart hstop => ?_⟩
    exact Excerpt.exists_ofSpanInWords? hlength (Span.fitsIn_iff.mpr ⟨hstart, hstop⟩) terminal.width

/-- Two lines, of which the first is a character of two bytes and the second begins
    with a tab. -/
def accentedSource : Source :=
  { index := 0, absolutePath := "/a", displayPath := "a", contents := "é\n\tabcdefghij" }

/-- A span that ends inside the accented character cannot be shown. On a
    terminal of eight columns the second line is cut on both sides, and in words
    as otherwise the mark is drawn in from the right. -/
theorem render?_fails_iff_misses_accent :
    let message (span : Span) : Message :=
      { source := some accentedSource, span, text := "here", kind := .error }
    let terminal : Terminal := { interactive := true, colored := false, width := 8 }
    byteLength accentedSource.chars < 2 ^ 60 ∧
      (message ⟨0, 1⟩).render? terminal { snippet := true } = none ∧
      Excerpt.ofSpanInWords? accentedSource.chars ⟨8, 3⟩ 8
        = some { line := 2, column := 5, shown := ⟨"...ef...".toList, 3, 5⟩ } := by
  intro message terminal
  have hshort : byteLength accentedSource.chars < 2 ^ 60 := by decide
  have hsource (span : Span) (source : Source) (h : (message span).source = some source) :
      byteLength source.chars < 2 ^ 60 := by
    rw [← Option.some.inj h]
    exact hshort
  -- The offset one is inside the first character.
  have hinside : Misses accentedSource.chars 1 :=
    Or.inr ⟨[], 'é', "\n\tabcdefghij".toList, by decide, by decide, by decide⟩
  have hfails := (render?_fails_iff_misses (message ⟨0, 1⟩) terminal { snippet := true }
    (hsource _)).1.mpr ⟨accentedSource, rfl, rfl, Or.inr hinside⟩
  have hwords := ((render?_fails_iff_misses (message ⟨8, 3⟩) terminal { snippet := true }
    (hsource _)).2 accentedSource rfl).1
  have hexcerpt : Excerpt.ofSpan? accentedSource.chars ⟨8, 3⟩ 8
      = some { line := 2, column := 5, shown := ⟨"...ef...".toList, 3, 5⟩ } := by decide
  exact ⟨hshort, hfails, hwords.trans hexcerpt⟩

end Message

end Diagnostics
