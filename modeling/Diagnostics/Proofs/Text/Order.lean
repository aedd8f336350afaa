import Diagnostics.Proofs.Text.Numbering

/-!
# The Order of Positions

The further on a place is in a text, the later is its position: the pass that
finds it counts boundaries, never takes one back, and measures the column from
the last of them. What it takes an argument to see is that the position moves
with every character. A boundary resets the column, and the one boundary that
completes no line resets it for nothing.

That boundary is a line feed after a carriage return, and it stands where the
column is zero already. So reading it alone leaves the position as it is, and
this is the only way to read on and stay. `position_cases` says so by what is
read: a line is completed, or the column moves, or it is that line feed.

## Theorems

* `Cursor.afterReturn_read_iff`: What the pass remembers of its text.
* `Cursor.lineCount_le_read`: The count of lines only grows.
* `Cursor.read_cases`: What is read without completing a line.
* `position_pair`: The second half of a pair does not move the position.
* `position_cases`: How reading on moves it.
-/

namespace Diagnostics

namespace Text

namespace Cursor

/-- The pass remembers whether its text ends with a carriage return. -/
theorem afterReturn_read_iff (cs : List Char) :
    (({} : Cursor).read cs).afterReturn = true ↔ cs.getLast? = some '\r' := by
  rcases List.eq_nil_or_concat' cs with rfl | ⟨cs, c, rfl⟩
  · simp only [read, List.foldl_nil, Bool.false_eq_true, List.getLast?_nil, reduceCtorEq]
  · rw [read_append, List.getLast?_concat, Option.some.injEq]
    -- Only the last character tells, whatever was read before it.
    generalize ({} : Cursor).read cs = cursor
    simp only [read, List.foldl_cons, List.foldl_nil, advance]
    by_cases hc : isBoundary c = true
    · rw [if_pos hc]
      exact beq_iff_eq
    · rw [if_neg hc]
      refine ⟨fun h => absurd h Bool.false_ne_true, ?_⟩
      rintro rfl
      exact absurd (by decide) hc

/-- A character completes a line, or is plain, or is the second half of a
    pair. -/
theorem advance_cases (cursor : Cursor) (c : Char) :
    (cursor.advance c).lineCount = cursor.lineCount + 1 ∨
      (cursor.advance c).lineCount = cursor.lineCount ∧ (cursor.advance c).afterReturn = false ∧
        (isBoundary c = false ∨ c = '\n' ∧ cursor.afterReturn = true) := by
  unfold advance
  by_cases hc : isBoundary c = true
  · rw [if_pos hc]
    by_cases hpair : (c == '\n' && cursor.afterReturn) = true
    · -- The second half of a pair completes nothing.
      rcases Bool.and_eq_true_iff.mp hpair with ⟨hfeed, hreturn⟩
      rw [beq_iff_eq] at hfeed
      subst hfeed
      exact Or.inr ⟨by simp only [hpair, if_true], rfl, Or.inr ⟨rfl, hreturn⟩⟩
    · exact Or.inl (if_neg hpair)
  · rw [if_neg hc]
    exact Or.inr ⟨rfl, rfl, Or.inl (Bool.eq_false_iff.mpr hc)⟩

theorem lineCount_le_advance (cursor : Cursor) (c : Char) :
    cursor.lineCount ≤ (cursor.advance c).lineCount := by
  rcases cursor.advance_cases c with h | ⟨h, -⟩
  · omega
  · omega

theorem lineCount_le_read (cursor : Cursor) (cs : List Char) :
    cursor.lineCount ≤ (cursor.read cs).lineCount := by
  induction cs generalizing cursor with
  | nil => exact Nat.le_refl _
  | cons c cs ih => exact Nat.le_trans (cursor.lineCount_le_advance c) (ih (cursor.advance c))

/-- A text that completes no line is plain, but for a line feed in front that
    is the second half of a pair. -/
theorem read_cases (cursor : Cursor) (cs : List Char) :
    cursor.lineCount < (cursor.read cs).lineCount ∨ IsPlain cs ∨
      ∃ plain, cs = '\n' :: plain ∧ IsPlain plain ∧ cursor.afterReturn = true := by
  induction cs generalizing cursor with
  | nil => exact Or.inr (Or.inl isPlain_nil)
  | cons c cs ih =>
      have hrest := (cursor.advance c).lineCount_le_read cs
      rw [read, List.foldl_cons, ← read]
      rcases cursor.advance_cases c with hcount | ⟨hcount, hreturn, hc⟩
      · exact Or.inl (by omega)
      · -- Behind such a character no pair is open, so what follows is plain or
        -- completes a line.
        rcases ih (cursor.advance c) with hmore | hplain | ⟨-, -, -, hopen⟩
        · exact Or.inl (by omega)
        · rcases hc with hc | ⟨rfl, hpair⟩
          · exact Or.inr (Or.inl (List.forall_mem_cons.mpr ⟨hc, hplain⟩))
          · exact Or.inr (Or.inr ⟨cs, rfl, hplain, hpair⟩)
        · rw [hreturn] at hopen
          exact absurd hopen Bool.false_ne_true

end Cursor

/-- Where a line starts the column is zero. -/
theorem column_of_endsLine {before : List Char} (h : EndsLine before) :
    (position before).column = 0 := by
  rw [← List.append_nil before, position_append before [] h isPlain_nil, byteLength_nil]

/-- The second half of a pair does not move the position. -/
theorem position_pair (a : List Char) :
    (position (a ++ ['\r', '\n'])).lineCount = (position (a ++ ['\r'])).lineCount ∧
      (position (a ++ ['\r', '\n'])).column = (position (a ++ ['\r'])).column := by
  refine ⟨lineCount_read_pair a, ?_⟩
  rw [column_of_endsLine (endsLine_pair a), column_of_endsLine (endsLine_concat (by decide) a)]

/-- Plain text moves the column by its length. -/
theorem position_append_plain (before : List Char) {plain : List Char} (h : IsPlain plain) :
    (position (before ++ plain)).lineCount = (position before).lineCount ∧
      (position (before ++ plain)).column = (position before).column + byteLength plain := by
  rcases exists_opening before with ⟨opening, lead, rfl, hopening, hlead⟩
  have hboth : IsPlain (lead ++ plain) := fun c hc =>
    (List.mem_append.mp hc).elim (hlead c) (h c)
  rw [List.append_assoc, position_append opening _ hopening hboth,
    position_append opening lead hopening hlead, byteLength_append]
  exact ⟨rfl, rfl⟩

theorem byteLength_pos {cs : List Char} (h : cs ≠ []) : 0 < byteLength cs :=
  Nat.pos_of_ne_zero fun hzero => h (byteLength_eq_zero_iff.mp hzero)

/-- Reading on completes a line, or it moves the column, or all that was read
    is the second half of a pair. -/
theorem position_cases (before : List Char) {between : List Char} (hne : between ≠ []) :
    (position before).lineCount < (position (before ++ between)).lineCount ∨
      (position before).lineCount = (position (before ++ between)).lineCount ∧
        (position before).column < (position (before ++ between)).column ∨
      before.getLast? = some '\r' ∧ between = ['\n'] := by
  have hread := (({} : Cursor).read before).read_cases between
  rw [← Cursor.read_append, Cursor.afterReturn_read_iff] at hread
  rcases hread with hcount | hplain | ⟨plain, rfl, hplain, hreturn⟩
  · exact Or.inl hcount
  · -- All of it is plain, and it moves the column by its length.
    have hpos := byteLength_pos hne
    rcases position_append_plain before hplain with ⟨hline, hcolumn⟩
    exact Or.inr (Or.inl ⟨hline.symm, by omega⟩)
  · -- Past the pair the column is counted from behind the line feed.
    by_cases hmore : plain = []
    · rw [hmore]
      exact Or.inr (Or.inr ⟨hreturn, rfl⟩)
    · have hpos := byteLength_pos hmore
      rcases List.getLast?_eq_some_iff.mp hreturn with ⟨a, rfl⟩
      rcases position_pair a with ⟨hline, hcolumn⟩
      rcases position_append_plain (a ++ ['\r', '\n']) hplain with ⟨hline', hcolumn'⟩
      have hstart := column_of_endsLine (endsLine_concat (c := '\r') (by decide) a)
      have htext : a ++ ['\r'] ++ '\n' :: plain = a ++ ['\r', '\n'] ++ plain := by
        simp only [List.append_assoc, List.cons_append, List.nil_append]
      rw [htext]
      exact Or.inr (Or.inl ⟨by omega, by omega⟩)

end Text

end Diagnostics
