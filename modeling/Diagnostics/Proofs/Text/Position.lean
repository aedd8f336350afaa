import Diagnostics.Text.Lines
import Mathlib.Data.List.Basic
import Mathlib.Data.List.Induction
import Mathlib.Data.List.TakeWhile

/-!
# The Line around a Place

The pass that finds a position reads the text before a place and remembers
numbers. What the numbers mean is said here by pieces of the text: everything
up to the last boundary before the place, which is the opening, and the lead
from there to the place, which has no boundary in it. A text before a place
falls into these two in one way, and the pass says how long they are.

`IsLineStart` and `IsLineEnd` say the same without pieces and without a pass,
by what stands at the offsets of the whole text. They are for statements; a
proof takes the pieces.

An opening may end with the first half of a pair of carriage return and line
feed. It is an opening all the same: a place between the two halves has an
empty line of its own as far as the start and the end of a line go. What this
does to line numbers is another matter, and not one of this module.

## Main definitions

* `IsPlain`: A text without boundaries.
* `EndsLine`: A text after which a line starts.
* `BoundaryAt`: A boundary that occupies given bytes of a text.
* `IsLineStart`: The offset after the last boundary before a place.
* `IsLineEnd`: The offset of the first boundary after a place.

## Theorems

* `exists_opening`: A text falls into an opening and a lead.
* `position_append`: The pass finds the opening and measures the lead.
* `lineText_append`: A line goes on from its lead to the first boundary.
* `exists_lineText_append`: A line goes on only into what is put on it.
* `isLineStart_append`: The opening ends where the line starts.
* `isLineEnd_append`: The line ends where its text does.
-/

namespace Diagnostics

namespace Text

/-- No character of the text ends a line. -/
def IsPlain (cs : List Char) : Prop :=
  ∀ c ∈ cs, isBoundary c = false

/-- A line starts after the text: it is empty, or its last character is a
    boundary. -/
def EndsLine (cs : List Char) : Prop :=
  ∀ c, cs.getLast? = some c → isBoundary c = true

theorem isPlain_nil : IsPlain [] := fun _ hc => absurd hc List.not_mem_nil

theorem endsLine_nil : EndsLine [] := by
  intro c hc
  rw [List.getLast?_nil] at hc
  exact absurd hc (by simp only [reduceCtorEq, not_false_eq_true])

theorem endsLine_concat {c : Char} (hc : isBoundary c = true) (cs : List Char) :
    EndsLine (cs ++ [c]) := by
  intro d hd
  rw [List.getLast?_concat, Option.some.injEq] at hd
  rw [← hd]
  exact hc

/-- The second half of a pair is a boundary, too. -/
theorem endsLine_pair (cs : List Char) : EndsLine (cs ++ ['\r', '\n']) := by
  have h := endsLine_concat (c := '\n') (by decide) (cs ++ ['\r'])
  rwa [List.append_assoc] at h

theorem isPlain_lineText (cs : List Char) : IsPlain (lineText cs) := by
  intro c hc
  have h := List.mem_takeWhile_imp hc
  simpa only [Bool.not_eq_eq_eq_not, Bool.not_true] using h

/-- The text before a place falls into what ends with its last boundary and
    the part of the line up to the place. -/
theorem exists_opening (before : List Char) :
    ∃ opening lead, before = opening ++ lead ∧ EndsLine opening ∧ IsPlain lead := by
  -- From the back: a boundary completes the opening, and anything else goes on
  -- the lead.
  induction before using List.reverseRecOn with
  | nil => exact ⟨[], [], rfl, endsLine_nil, isPlain_nil⟩
  | append_singleton cs c ih =>
      by_cases hc : isBoundary c = true
      · exact ⟨cs ++ [c], [], (List.append_nil _).symm, endsLine_concat hc cs, isPlain_nil⟩
      · rcases ih with ⟨opening, lead, hcs, hopening, hlead⟩
        refine ⟨opening, lead ++ [c], ?_, hopening, ?_⟩
        · rw [hcs, List.append_assoc]
        · intro d hd
          rcases List.mem_append.mp hd with hd | hd
          · exact hlead d hd
          · rw [List.mem_singleton.mp hd]
            exact Bool.eq_false_iff.mpr hc

namespace Cursor

/-- A plain text moves the place on its line and leaves the line alone. -/
theorem read_of_isPlain (cursor : Cursor) (cs : List Char) (h : IsPlain cs) :
    (cursor.read cs).lineCount = cursor.lineCount ∧
      (cursor.read cs).lineStart = cursor.lineStart := by
  induction cs generalizing cursor with
  | nil => exact ⟨rfl, rfl⟩
  | cons c cs ih =>
      have hc : isBoundary c = false := h c List.mem_cons_self
      -- A plain character moves the offset and that is all.
      have hstep : cursor.advance c
          = { cursor with offset := cursor.offset + c.utf8Size, afterReturn := false } := by
        simp only [advance, hc, Bool.false_eq_true, if_false]
      rcases ih (cursor.advance c) (fun d hd => h d (List.mem_cons_of_mem c hd)) with ⟨h1, h2⟩
      rw [hstep] at h1 h2
      rw [read, List.foldl_cons, ← read, hstep]
      exact ⟨h1, h2⟩

/-- After an opening a line starts where the pass has come to. -/
theorem lineStart_read_of_endsLine (cs : List Char) (h : EndsLine cs) :
    (({} : Cursor).read cs).lineStart = byteLength cs := by
  rcases List.eq_nil_or_concat' cs with rfl | ⟨cs, c, rfl⟩
  · rfl
  · have hc : isBoundary c = true := h c (List.getLast?_concat)
    have hoffset := offset_read {} (cs ++ [c])
    rw [Nat.zero_add, read_append] at hoffset
    rw [read_append, ← hoffset]
    simp only [read, List.foldl_cons, List.foldl_nil, advance, hc, if_true]

end Cursor

theorem position_append (opening lead : List Char) (hopening : EndsLine opening)
    (hlead : IsPlain lead) :
    position (opening ++ lead)
      = { lineCount := (({} : Cursor).read opening).lineCount
          column := byteLength lead
          lineStart := byteLength opening } := by
  rcases Cursor.read_of_isPlain (({} : Cursor).read opening) lead hlead with ⟨hcount, hstart⟩
  rw [Cursor.lineStart_read_of_endsLine opening hopening] at hstart
  have hoffset : (({} : Cursor).read (opening ++ lead)).offset
      = byteLength opening + byteLength lead := by
    rw [Cursor.offset_read, Nat.zero_add, byteLength_append]
  rw [Cursor.read_append] at hoffset
  simp only [position, Cursor.read_append, hcount, hstart, hoffset, Nat.add_sub_cancel_left]

theorem lineText_cons_boundary {c : Char} (cs : List Char) (hc : isBoundary c = true) :
    lineText (c :: cs) = [] := by
  refine List.takeWhile_cons_of_neg ?_
  rw [hc]
  decide

theorem lineText_cons_plain {c : Char} (cs : List Char) (hc : isBoundary c = false) :
    lineText (c :: cs) = c :: lineText cs := by
  refine List.takeWhile_cons_of_pos ?_
  rw [hc]
  rfl

theorem lineText_append (lead rest : List Char) (hlead : IsPlain lead) :
    lineText (lead ++ rest) = lead ++ lineText rest := by
  refine List.takeWhile_append_of_pos (fun c hc => ?_)
  rw [hlead c hc]
  rfl

/-- A boundary that occupies the bytes `[i, j)` of a text. -/
def BoundaryAt (cs : List Char) (i j : Nat) : Prop :=
  ∃ a c b, cs = a ++ c :: b ∧ isBoundary c = true ∧ byteLength a = i ∧ byteLength (a ++ [c]) = j

theorem BoundaryAt.lt {cs : List Char} {i j : Nat} (h : BoundaryAt cs i j) : i < j := by
  rcases h with ⟨a, c, b, -, -, rfl, rfl⟩
  have hpos := c.utf8Size_pos
  simp only [byteLength_append, byteLength_cons, byteLength_nil]
  omega

/-- The offset just after the last boundary before a place, or zero if there
    is none. -/
structure IsLineStart (cs : List Char) (offset start : Nat) : Prop where
  start_le : start ≤ offset
  opens : start = 0 ∨ ∃ i, BoundaryAt cs i start
  last : ∀ i j, BoundaryAt cs i j → j ≤ offset → j ≤ start

/-- The offset of the first boundary at or after a place, or the length of the
    text if there is none. -/
structure IsLineEnd (cs : List Char) (offset stop : Nat) : Prop where
  le_stop : offset ≤ stop
  closes : stop = byteLength cs ∨ ∃ j, BoundaryAt cs stop j
  first : ∀ i j, BoundaryAt cs i j → offset ≤ i → stop ≤ i
  stop_le : stop ≤ byteLength cs

/-- A boundary lies before or after a plain stretch of the text, and not
    across an end of it. -/
theorem BoundaryAt.le_or_le {opening plain rest : List Char} {i j : Nat}
    (h : BoundaryAt (opening ++ plain ++ rest) i j) (hplain : IsPlain plain) :
    j ≤ byteLength opening ∨ byteLength (opening ++ plain) ≤ i := by
  rcases h with ⟨a, c, b, htext, hc, rfl, rfl⟩
  -- Nothing plain is a boundary, and so the boundary is before or behind it.
  have hmem : c ∉ plain := by
    intro hmem
    rw [hplain c hmem] at hc
    exact Bool.false_ne_true hc
  rw [List.append_assoc] at htext
  rcases List.append_eq_append_iff.mp htext with ⟨z, rfl, hrest⟩ | ⟨z, rfl, hrest⟩
  · -- The text before the boundary goes on after the opening, by `z`.
    right
    rcases List.append_eq_append_iff.mp hrest with ⟨w, rfl, -⟩ | ⟨w, rfl, hw⟩
    · rw [← List.append_assoc, byteLength_append (opening ++ plain)]
      omega
    · cases w with
      | nil => rw [List.append_nil]
      | cons d w =>
          rw [List.cons_append, List.cons.injEq] at hw
          rw [hw.1] at hmem
          exact absurd (List.mem_append_right z List.mem_cons_self) hmem
  · cases z with
    | nil =>
        -- The boundary comes right after the opening, so nothing plain does.
        right
        cases plain with
        | nil => rw [List.append_nil, List.append_nil]
        | cons d plain =>
            rw [List.nil_append, List.cons_append, List.cons.injEq] at hrest
            rw [hrest.1] at hmem
            exact absurd List.mem_cons_self hmem
    | cons d z =>
        left
        rw [List.cons_append, List.cons.injEq] at hrest
        simp only [byteLength_append, byteLength_cons, byteLength_nil, hrest.1]
        omega

theorem isLineStart_append (opening lead rest : List Char) (hopening : EndsLine opening)
    (hlead : IsPlain lead) :
    IsLineStart (opening ++ lead ++ rest) (byteLength (opening ++ lead)) (byteLength opening) where
  start_le := by
    rw [byteLength_append]
    omega
  opens := by
    -- Its last character is the boundary, if it has one.
    rcases List.eq_nil_or_concat' opening with rfl | ⟨cs, c, rfl⟩
    · exact Or.inl rfl
    · refine Or.inr ⟨byteLength cs, cs, c, lead ++ rest, ?_, ?_, rfl, rfl⟩
      · simp only [List.append_assoc, List.cons_append, List.nil_append]
      · exact hopening c List.getLast?_concat
  last := by
    intro i j h hj
    have hlt : i < j := h.lt
    rcases h.le_or_le hlead with h | h
    · exact h
    · -- A boundary behind the lead ends behind the place.
      omega

/-- What follows a line is nothing, or starts with a boundary. -/
theorem exists_closing (cs : List Char) :
    ∃ closing, cs = lineText cs ++ closing ∧
      (closing = [] ∨ ∃ c b, closing = c :: b ∧ isBoundary c = true) := by
  refine ⟨cs.dropWhile fun c => !isBoundary c, List.takeWhile_append_dropWhile.symm, ?_⟩
  cases h : cs.dropWhile fun c => !isBoundary c with
  | nil => exact Or.inl rfl
  | cons c b =>
      refine Or.inr ⟨c, b, rfl, ?_⟩
      have hhead := List.head?_dropWhile_not (fun c => !isBoundary c) cs
      rw [h, List.head?_cons] at hhead
      simpa only [Bool.not_eq_true', Bool.not_eq_false'] using hhead

/-- A line of a text goes on into what follows the text only if the text is
    all on that line. -/
theorem exists_lineText_append (a b : List Char) :
    ∃ more, lineText (a ++ b) = lineText a ++ more ∧ (lineText a = a ∨ more = []) := by
  rcases exists_closing a with ⟨closing, ha, rfl | ⟨c, d, rfl, hc⟩⟩
  · -- No boundary in the first text: its line goes on into the second.
    have hall : lineText a = a := by
      rw [List.append_nil] at ha
      exact ha.symm
    refine ⟨lineText b, ?_, Or.inl hall⟩
    have hplain := isPlain_lineText a
    rw [hall] at hplain ⊢
    exact lineText_append a b hplain
  · -- The line has ended before the second text begins.
    refine ⟨[], ?_, Or.inr rfl⟩
    have hcut : a ++ b = lineText a ++ c :: (d ++ b) := by
      rw [← List.cons_append, ← List.append_assoc, ← ha]
    rw [hcut, lineText_append _ _ (isPlain_lineText a), lineText_cons_boundary _ hc]

theorem isLineEnd_append (before rest : List Char) :
    IsLineEnd (before ++ rest) (byteLength before) (byteLength (before ++ lineText rest)) := by
  rcases exists_closing rest with ⟨closing, hrest, hclosing⟩
  -- The text is what comes before the place, the rest of its line, and what follows the line.
  have htext : before ++ rest = before ++ lineText rest ++ closing := by
    rw [List.append_assoc, ← hrest]
  rw [htext]
  refine ⟨?_, ?_, ?_, ?_⟩
  · rw [byteLength_append]
    omega
  · rcases hclosing with rfl | ⟨c, b, rfl, hc⟩
    · exact Or.inl (by rw [List.append_nil])
    · exact Or.inr ⟨_, _, c, b, rfl, hc, rfl, rfl⟩
  · intro i j h hi
    have hlt : i < j := h.lt
    rcases h.le_or_le (isPlain_lineText rest) with h | h
    · -- A boundary before the place begins before it.
      omega
    · exact h
  · rw [byteLength_append _ closing]
    omega

end Text

end Diagnostics
