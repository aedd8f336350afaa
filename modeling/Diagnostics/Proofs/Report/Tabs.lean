import Diagnostics.Proofs.Excerpt.Characters
import Diagnostics.Proofs.Report.Checks
import Diagnostics.Proofs.Text.Order
import Diagnostics.Proofs.Text.Returns
import Diagnostics.Render

/-!
# What the Report Says about a Tab

The check for tabs has lines of its own. It cuts a file at line feeds and adds
up lengths, while the excerpt for an error finds its line again from the offset,
with every kind of boundary. A file may end its lines in other ways than with
a line feed, and then the two see different lines.

Nothing comes of it. An error is only about a tab that is the first byte of the
file or comes right after a line feed, and there a line starts for both. So the
column is zero, nothing stands in front of the marker, and the tab is the first
thing of the line that is shown, as two blanks.

The numbers of two such lines cannot be the same. Between them there is a tab,
which is no boundary, and behind it at least the line feed, which therefore
completes a line or belongs to a pair that does.

## Main definitions

* `Text.TabOpensLine`: A tab among some bytes, behind a line feed or nothing.
* `Excerpt.IsAtTab`: An excerpt for the first column of such a line.
* `Report.PointsAtTab`: How an error about a tab is shown.

## Theorems

* `Text.startsWithTabAt_iff_bytes`: Lines that start with a tab, by the bytes.
* `Excerpt.exists_atTab`: The excerpt for an error.
* `Excerpt.line_lt_of_tabs`: A later error has a larger line number.
* `Report.exists_excerpts`: Many errors, one after the other.
* `Report.tabErrors_point`: The errors, and what is shown of them.
-/

namespace Diagnostics

open Text

namespace Text

/-- The byte of a tab. -/
def tab : UInt8 := 9

/-- A tab at an offset of some bytes, right behind a line feed or with nothing before
    it. -/
def TabOpensLine (bs : List UInt8) (offset : Nat) : Prop :=
  bs[offset]? = some tab ∧
    (offset = 0 ∨ ∃ previous, offset = previous + 1 ∧ bs[previous]? = some lineFeed)

/-- Lines that start with a tab can be told by the bytes alone. -/
theorem startsWithTabAt_iff_bytes {cs : List Char} {offset : Nat} :
    StartsWithTabAt cs offset ↔ TabOpensLine (bytes cs) offset := by
  -- Both bytes are whole characters wherever they occur.
  have htab : (bytes cs)[offset]? = some tab ↔
      ∃ before after, cs = before ++ '\t' :: after ∧ byteLength before = offset :=
    getElem?_bytes_iff (c := '\t') (by decide)
  have hfeed (previous : Nat) : (bytes cs)[previous]? = some lineFeed ↔
      ∃ before after, cs = before ++ '\n' :: after ∧ byteLength before = previous :=
    getElem?_bytes_iff (c := '\n') (by decide)
  have hone : Char.utf8Size '\n' = 1 := rfl
  rw [TabOpensLine, htab]
  constructor
  · rintro ⟨before, after, rfl, hoffset, hstart⟩
    refine ⟨⟨before, after, rfl, hoffset⟩, ?_⟩
    -- Before the tab there is nothing, or a text that ends with a line feed.
    rcases hstart with rfl | ⟨front, rfl⟩
    · exact Or.inl hoffset.symm
    · right
      refine ⟨byteLength front, ?_, (hfeed _).mpr ⟨front, '\t' :: after, ?_, rfl⟩⟩
      · rw [← hoffset, byteLength_append, byteLength_cons, byteLength_nil, hone]
      · rw [List.append_assoc, List.singleton_append]
  · rintro ⟨⟨before, after, rfl, hoffset⟩, hstart⟩
    refine ⟨before, after, rfl, hoffset, ?_⟩
    rcases hstart with hzero | ⟨previous, hnext, hprevious⟩
    · exact Or.inl (byteLength_eq_zero_iff.mp (hoffset.trans hzero))
    · -- The line feed ends where the tab begins, so it ends what is before the tab.
      right
      rcases (hfeed previous).mp hprevious with ⟨front, back, htext, hfront⟩
      have hcut : before ++ '\t' :: after = front ++ ['\n'] ++ back := by
        rw [htext, List.append_assoc, List.singleton_append]
      have hlength : byteLength before = byteLength (front ++ ['\n']) := by
        rw [hoffset, hnext, byteLength_append, byteLength_cons, byteLength_nil, hfront, hone]
      rw [(append_inj_of_byteLength hcut hlength).1]
      exact ⟨front, rfl⟩

/-- A line starts where the check says that one does. -/
theorem exists_of_startsWithTabAt {cs : List Char} {offset : Nat} (h : StartsWithTabAt cs offset) :
    ∃ before after, cs = before ++ '\t' :: after ∧ byteLength before = offset ∧
      EndsLine before := by
  rcases h with ⟨before, after, htext, hoffset, rfl | ⟨front, rfl⟩⟩
  · exact ⟨[], after, htext, hoffset, endsLine_nil⟩
  · exact ⟨_, after, htext, hoffset, endsLine_concat (by decide) front⟩

end Text

namespace Excerpt

/-- An excerpt for the first column of a line that starts with a tab: nothing in front
    of the marker, and the tab as two blanks. -/
structure IsAtTab (e : Excerpt) : Prop where
  column_eq : e.column = 0
  indent_eq : e.shown.indent = []
  marker_eq : e.shown.marker = ['^']
  starts : [' ', ' '] <+: e.shown.displayed
  no_tab : '\t' ∉ e.shown.displayed

variable {cs : List Char} {s t : Nat} {e f : Excerpt}

/-- A tab in the first column is two blanks wide. -/
theorem expandTabs_cons_tab (cs : List Char) :
    expandTabs ('\t' :: cs) = [' ', ' '] ++ expandFrom 2 cs := by
  rw [expandTabs_eq_expandFrom, expandFrom, if_pos rfl]
  rfl

/-- Where a line starts with a tab, the excerpt is at it, and its number is that of
    the line. -/
theorem exists_atTab {before : List Char} (hends : EndsLine before) (after : List Char) :
    ∃ e, ofSpan? (before ++ '\t' :: after) ⟨byteLength before, 0⟩ 0 = some e ∧ e.IsAtTab ∧
      e.line = (position before).lineCount + 1 := by
  have hexcerpt := ofSpan?_append before [] [] ('\t' :: after) 0 hends isPlain_nil
  rw [List.append_nil, List.nil_append, byteLength_nil, MarkedLine.fit_of_le (Or.inl rfl)]
    at hexcerpt
  refine ⟨_, hexcerpt, ?_, rfl⟩
  -- Nothing of the line lies before the place, and the tab is the first of it.
  have hshown := shownLine_eq [] [] ('\t' :: after) isPlain_nil
  have hline : (shownLine [] [] ('\t' :: after)).displayed
      = [' ', ' '] ++ expandFrom 2 (lineText after) := by
    rw [displayed_shownLine [] [] _ isPlain_nil, List.nil_append, List.nil_append,
      lineText_cons_plain after (by decide), expandTabs_cons_tab]
  exact {
    column_eq := rfl
    indent_eq := by rw [hshown]; rfl
    marker_eq := by rw [hshown]; rfl
    starts := by
      rw [hline]
      exact List.prefix_append _ _
    no_tab := by
      rw [displayed_shownLine [] [] _ isPlain_nil]
      exact tab_not_mem_expandTabs _ }

/-- Of two lines that start with a tab the later one has the larger number. -/
theorem line_lt_of_tabs (hs : StartsWithTabAt cs s) (ht : StartsWithTabAt cs t) (hlt : s < t)
    (he : ofSpan? cs ⟨s, 0⟩ 0 = some e) (hf : ofSpan? cs ⟨t, 0⟩ 0 = some f) : e.line < f.line := by
  rcases exists_of_startsWithTabAt hs with ⟨before, after, rfl, rfl, hends⟩
  rcases exists_of_startsWithTabAt ht with ⟨before', after', htext, rfl, hends'⟩
  rcases exists_atTab hends after with ⟨_, he', -, heline⟩
  rcases exists_atTab hends' after' with ⟨_, hf', -, hfline⟩
  rw [he', Option.some.injEq] at he
  rw [htext, hf', Option.some.injEq] at hf
  subst he hf
  rw [heline, hfline]
  -- Both tabs cut the same text, and the one at the smaller offset cuts it first.
  rcases List.append_eq_append_iff.mp htext with ⟨between, rfl, hrest⟩ | ⟨extra, rfl, -⟩
  · -- What is read between the two starts with the first tab, and ends a line.
    have hne : between ≠ [] := by
      rintro rfl
      rw [List.append_nil] at hlt
      exact Nat.lt_irrefl _ hlt
    have hcolumn := column_of_endsLine hends'
    rcases position_cases before hne with hcount | ⟨-, hmoved⟩ | ⟨-, hfeed⟩
    · omega
    · omega
    · rw [hfeed, List.singleton_append, List.cons.injEq] at hrest
      exact absurd hrest.1 (by decide)
  · rw [byteLength_append] at hlt
    omega

end Excerpt

namespace Report

/-- How an error of the check for tabs is shown with its source line, where the width of
    the terminal is not known. -/
structure PointsAtTab (source : Source) (error : Message) (e : Excerpt) : Prop where
  excerpt : Excerpt.ofSpan? source.chars error.span 0 = some e
  atTab : e.IsAtTab
  rendered : ∀ (terminal : Terminal) (options : Options),
    error.render? { terminal with width := 0 } { options with snippet := true }
      = some ((error.snippet source.displayPath e).write terminal.colored)

/-- The error about a line that starts at an offset. -/
def tabError (source : Source) (offset : Nat) : Message :=
  { source := some source
    span := ⟨offset, 0⟩
    text := "line is indented with a tab"
    kind := .error }

theorem exists_pointsAtTab {source : Source} {offset : Nat}
    (h : StartsWithTabAt source.chars offset) :
    ∃ e, PointsAtTab source (tabError source offset) e := by
  rcases exists_of_startsWithTabAt h with ⟨before, after, htext, rfl, hends⟩
  rcases Excerpt.exists_atTab hends after with ⟨e, he, hatTab, -⟩
  rw [← htext] at he
  refine ⟨e, he, hatTab, fun terminal options => ?_⟩
  simp only [Message.render?, Message.styled?, tabError, if_true, he, Option.map_some]

/-- Lines that start with a tab are shown with numbers that only grow. -/
theorem exists_excerpts {source : Source} {offsets : List Nat} (hsorted : offsets.Pairwise (· < ·))
    (hstarts : ∀ offset ∈ offsets, StartsWithTabAt source.chars offset) :
    ∃ excerpts : List Excerpt,
      List.Forall₂ (PointsAtTab source) (offsets.map (tabError source)) excerpts ∧
      excerpts.Pairwise (fun e f => e.line < f.line) ∧
      ∀ f ∈ excerpts, ∃ offset ∈ offsets, PointsAtTab source (tabError source offset) f := by
  induction offsets with
  | nil => exact ⟨[], .nil, .nil, fun _ hmem => absurd hmem List.not_mem_nil⟩
  | cons offset rest ih =>
      rw [List.pairwise_cons] at hsorted
      rw [List.forall_mem_cons] at hstarts
      rcases exists_pointsAtTab hstarts.1 with ⟨e, he⟩
      rcases ih hsorted.2 hstarts.2 with ⟨excerpts, hall, hgrow, hback⟩
      refine ⟨e :: excerpts, .cons he hall, List.pairwise_cons.mpr ⟨?_, hgrow⟩, ?_⟩
      · -- Every later excerpt belongs to a later offset, and so to a later line.
        intro f hmem
        rcases hback f hmem with ⟨later, hlater, hf⟩
        exact Excerpt.line_lt_of_tabs hstarts.1 (hstarts.2 later hlater) (hsorted.1 later hlater)
          he.excerpt hf.excerpt
      · rw [List.forall_mem_cons]
        refine ⟨⟨offset, List.mem_cons_self, he⟩, fun f hmem => ?_⟩
        rcases hback f hmem with ⟨later, hlater, hf⟩
        exact ⟨later, List.mem_cons_of_mem _ hlater, hf⟩

/-- The errors of the check for tabs. They are at exactly the tabs that come right behind
    a line feed or start the file, from the first to the last and each once. Each is
    shown under the first column of its line, and the line numbers only grow. -/
theorem tabErrors_point (source : Source) :
    ∃ (offsets : List Nat) (excerpts : List Excerpt), offsets.Pairwise (· < ·) ∧
      (∀ offset, offset ∈ offsets ↔ TabOpensLine (bytes source.chars) offset) ∧
      tabErrors source = offsets.map (tabError source) ∧
      List.Forall₂ (PointsAtTab source) (tabErrors source) excerpts ∧
      excerpts.Pairwise fun e f => e.line < f.line := by
  rcases isTabErrors_tabErrors source with ⟨offsets, hsorted, hoffsets, herrors⟩
  -- Each offset of an error is one at which a line starts with a tab.
  have hstarts : ∀ offset ∈ offsets, StartsWithTabAt source.chars offset :=
    fun offset hmem => (hoffsets offset).mp hmem
  have herrors' : tabErrors source = offsets.map (tabError source) := herrors
  rcases exists_excerpts hsorted hstarts with ⟨excerpts, hall, hgrow, -⟩
  refine ⟨offsets, excerpts, hsorted, fun offset => ?_, herrors', ?_, hgrow⟩
  · rw [hoffsets, startsWithTabAt_iff_bytes]
  · rw [herrors']
    exact hall

/-- A tab behind a lone return starts a line of the excerpts, and none of the check. -/
example : tabOffsets 0 (lines ['\t', 'a', '\r', '\t', '\r', '\n', '\t']) = [0, 6] := by decide

end Report

end Diagnostics
