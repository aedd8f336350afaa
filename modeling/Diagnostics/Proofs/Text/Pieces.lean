import Diagnostics.Proofs.Text.Numbering
import Diagnostics.Text.Span

/-!
# Lines as Pieces of a Unified Text

The other way to the lines of a text is to rewrite it first. Once every pair of
carriage return and line feed has become a line feed, and then every boundary
that is left has, the lines are what stands between line feeds, and there is
nothing left to know about boundaries.

The rewriting looks one character ahead and the pass that finds a position looks
one character back, and a run of returns and feeds is where the two could fall
out of step. They do not, because both see the same lines: `splitOn_unify` says
it for the pieces, and `splitLines_append` has said it for the pass.

The pass counts bytes, and a boundary may be longer than the line feed it is
rewritten to. So nothing is said about offsets into the rewritten text. Only the
last piece is measured, which has no boundary in it and is the end of the text
as it was.

## Main definitions

* `Position.EndsPieces`: A position, told by the pieces of the text before it.

## Theorems

* `splitOn_unify`: The pieces between line feeds are the lines.
* `splitOn_unify_append`: They are counted up to the last one.
* `position_endsPieces`: The position of the place after a text, by its pieces.
-/

namespace Diagnostics

namespace Text

theorem unify_pair (cs : List Char) : unify ('\r' :: '\n' :: cs) = '\n' :: unify cs := rfl

/-- Outside pairs a text is rewritten one character at a time. -/
theorem unify_cons {c : Char} {cs : List Char} (hpair : ¬ (c = '\r' ∧ cs.head? = some '\n')) :
    unify (c :: cs) = (if isBoundary c then '\n' else c) :: unify cs := by
  have hjoin : joinPairs (c :: cs) = c :: joinPairs cs := by
    rw [joinPairs]
    intro rest hcr hlf
    exact hpair ⟨hcr, by rw [hlf, List.head?_cons]⟩
  rw [unify, hjoin, List.map_cons, unify]

theorem splitOn_cons_feed (cs : List Char) :
    ('\n' :: cs).splitOn '\n' = [] :: cs.splitOn '\n' := by
  rw [List.splitOn_cons_eq_if_modifyHead, if_pos (beq_self_eq_true _)]

theorem splitOn_cons_of_ne {c : Char} (hc : c ≠ '\n') (cs : List Char) :
    (c :: cs).splitOn '\n' = (cs.splitOn '\n').modifyHead (c :: ·) := by
  rw [List.splitOn_cons_eq_if_modifyHead, if_neg (fun h => hc (beq_iff_eq.mp h))]

/-- A character put in front of the first line is put in front of its text. -/
theorem map_text_consFirst (c : Char) (cs : List Char) :
    (Line.consFirst c (splitLines cs)).map Line.text
      = ((splitLines cs).map Line.text).modifyHead (c :: ·) := by
  rcases exists_splitLines_cons cs with ⟨boundary, rest, hsplit⟩
  rw [hsplit]
  rfl

/-- The pieces between the line feeds of the rewritten text are the lines of the
    text as it was. -/
theorem splitOn_unify (cs : List Char) :
    (unify cs).splitOn '\n' = (splitLines cs).map Line.text := by
  -- By the recursion of `splitLines`, which takes a pair at once as the
  -- rewriting does.
  fun_induction splitLines cs with
  | case1 => rfl
  | case2 rest ih => rw [unify_pair, splitOn_cons_feed, ih, List.map_cons]
  | case3 c rest hne hc ih =>
      have hpair : ¬ (c = '\r' ∧ rest.head? = some '\n') := by
        rintro ⟨hcr, hlf⟩
        rcases List.head?_eq_some_iff.mp hlf with ⟨ds, hds⟩
        exact hne ds hcr hds
      rw [unify_cons hpair, if_pos hc, splitOn_cons_feed, ih, List.map_cons]
  | case4 c rest _ hc ih =>
      -- A plain character is no half of a pair, and no line feed either.
      have hcr : c ≠ '\r' := by
        rintro rfl
        exact hc (by decide)
      have hlf : c ≠ '\n' := by
        rintro rfl
        exact hc (by decide)
      rw [unify_cons fun h => hcr h.1, if_neg hc, splitOn_cons_of_ne hlf, ih, map_text_consFirst]

/-- A text without boundaries is one line. -/
theorem splitLines_of_isPlain {cs : List Char} (h : IsPlain cs) : splitLines cs = [⟨cs, []⟩] := by
  induction cs with
  | nil => rfl
  | cons c cs ih =>
      have hrest : IsPlain cs := fun d hd => h d (List.mem_cons_of_mem c hd)
      rw [splitLines_cons_plain cs (h c List.mem_cons_self), ih hrest, Line.consFirst]

/-- The lead of a place is the last piece of the text before it, and comes after as
    many others as the pass has counted. -/
theorem splitOn_unify_append {opening lead : List Char} (hopening : EndsLine opening)
    (hlead : IsPlain lead) :
    ∃ done : List (List Char), (unify (opening ++ lead)).splitOn '\n' = done ++ [lead] ∧
      done.length = (({} : Cursor).read opening).lineCount := by
  -- The lead has no boundary, so no pair is cut in two where it begins.
  have hpair : ¬ (opening.getLast? = some '\r' ∧ lead.head? = some '\n') := by
    rintro ⟨-, hlf⟩
    have hplain := hlead '\n' (List.mem_of_mem_head? hlf)
    exact absurd hplain (by decide)
  rcases splitLines_append opening lead hopening hpair with ⟨done, hsplit, hlength, -⟩
  refine ⟨done.map Line.text, ?_, ?_⟩
  · rw [splitOn_unify, hsplit, splitLines_of_isPlain hlead, List.map_append, List.map_cons,
      List.map_nil]
  · rw [List.length_map, hlength]

/-- A position at the end of a text that falls into some pieces, of which it stands
    in the last. -/
structure Position.EndsPieces (p : Position) (cs : List Char) (pieces : List (List Char))
    (last : List Char) : Prop where
  /-- All pieces but the last one are counted. -/
  length_eq : pieces.length = p.lineCount + 1
  getLast?_eq : pieces.getLast? = some last
  column_eq : p.column = byteLength last
  lineStart_add : p.lineStart + p.column = byteLength cs
  /-- The line starts between two characters. -/
  not_misses : ¬ Misses cs p.lineStart
  /-- What stands there is the last piece, as it was before any rewriting. -/
  slice?_eq : slice? p.lineStart p.column cs = some last
  isPlain : IsPlain last

/-- The pass over a text comes to the last piece of the text, once its boundaries
    are line feeds and it is cut at all of them. -/
theorem position_endsPieces (cs : List Char) :
    ∃ last, (position cs).EndsPieces cs ((unify cs).splitOn '\n') last := by
  rcases exists_opening cs with ⟨opening, lead, rfl, hopening, hlead⟩
  rcases splitOn_unify_append hopening hlead with ⟨done, hpieces, hlength⟩
  refine ⟨lead, ?_⟩
  -- The lead is the last piece, and the opening all others.
  rw [hpieces, position_append opening lead hopening hlead]
  exact {
    length_eq := by rw [List.length_append, hlength, List.length_singleton]
    getLast?_eq := List.getLast?_concat
    column_eq := rfl
    lineStart_add := (byteLength_append opening lead).symm
    not_misses := not_misses_iff.mpr ⟨opening, lead, rfl, rfl⟩
    slice?_eq := by
      have h := slice?_append opening lead []
      rwa [List.append_nil] at h
    isPlain := hlead }

/-- Four boundaries, of which the return before the pair and the feed after it
    each end a line of their own. -/
example : position ['é', '\r', '\r', '\n', '\n', '\u2028', 'a', 'é']
    = { lineCount := 4, column := 3, lineStart := 9 } := by decide

end Text

end Diagnostics
