import Diagnostics.Proofs.Text.Position
import Diagnostics.Text.Split

/-!
# Line Numbers

The pass that finds a position counts boundaries and sees only the text before
the place. Whether its count is the number of a line is a question about the
whole text: the lines before the place are complete only if no boundary goes on
past it, and the one boundary that can is the pair of carriage return and line
feed.

`splitLines_append` is the good case. Cutting a text where a line starts, and
not between the halves of a pair, cuts its lines into those of the two pieces,
and there are as many in the first as the pass has counted.

Between the halves the pass has counted a line that is not complete. The count
is then the number of the line after the pair, and that line starts a byte
further on. `InsidePair` names these places; they are the only ones at which a
position and the lines of its text disagree.

## Main definitions

* `InsidePair`: A place between a carriage return and its line feed.

## Theorems

* `lineCount_read_add`: The lines counted do not depend on what came before.
* `splitLines_append`: Lines of a text cut where one of them starts.
* `insidePair_append_iff`: A place inside a pair, by the text around it.
* `getElem?_splitLines`: The line that a count is the number of.
* `startOf_of_insidePair`: Where the line of that number starts inside a pair.
-/

namespace Diagnostics

namespace Text

theorem Cursor.afterReturn_advance (a b : Cursor) (c : Char) :
    (a.advance c).afterReturn = (b.advance c).afterReturn := by
  unfold advance
  by_cases hc : isBoundary c = true
  · rw [if_pos hc, if_pos hc]
  · rw [if_neg hc, if_neg hc]

/-- What a pass has read changes the count of what is still to come only if
    that begins with the second half of a pair. -/
theorem Cursor.lineCount_read_add (a b : Cursor) (cs : List Char)
    (h : a.afterReturn = b.afterReturn ∨ cs.head? ≠ some '\n') :
    (a.read cs).lineCount + b.lineCount = (b.read cs).lineCount + a.lineCount := by
  -- Two passes over one text: after the first character they agree on whether
  -- a pair is open, so the alternative matters to that character alone.
  induction cs generalizing a b with
  | nil => exact Nat.add_comm _ _
  | cons c cs ih =>
      have hrest := ih (a.advance c) (b.advance c) (Or.inl (afterReturn_advance a b c))
      have hstep : (a.advance c).lineCount + b.lineCount
          = (b.advance c).lineCount + a.lineCount := by
        have hpair : (c == '\n' && a.afterReturn) = (c == '\n' && b.afterReturn) := by
          rcases h with h | h
          · rw [h]
          · have hc : (c == '\n') = false := by
              rw [List.head?_cons, ne_eq, Option.some.injEq] at h
              exact beq_eq_false_iff_ne.mpr h
            rw [hc, Bool.false_and, Bool.false_and]
        unfold advance
        by_cases hc : isBoundary c = true
        · simp only [hc, if_true, hpair]
          split <;> omega
        · simp only [hc, Bool.false_eq_true, if_false]
          omega
      simp only [read, List.foldl_cons] at hrest ⊢
      omega

theorem splitLines_cons_boundary {c : Char} {cs : List Char} (hc : isBoundary c = true)
    (hpair : ¬ (c = '\r' ∧ cs.head? = some '\n')) :
    splitLines (c :: cs) = ⟨[], [c]⟩ :: splitLines cs := by
  rw [splitLines, if_pos hc]
  intro rest hcr hlf
  exact hpair ⟨hcr, by rw [hlf, List.head?_cons]⟩

theorem splitLines_cons_plain {c : Char} (cs : List Char) (hc : isBoundary c = false) :
    splitLines (c :: cs) = Line.consFirst c (splitLines cs) := by
  rw [splitLines, if_neg (by rw [hc]; exact Bool.false_ne_true)]
  intro rest hcr _
  rw [hcr] at hc
  exact absurd hc (by decide)

/-- The first line of a text is the part of it before its first boundary. -/
theorem exists_splitLines_cons (cs : List Char) :
    ∃ boundary rest, splitLines cs = ⟨lineText cs, boundary⟩ :: rest := by
  induction cs with
  | nil => exact ⟨[], [], rfl⟩
  | cons c cs ih =>
      by_cases hc : isBoundary c = true
      · rw [lineText_cons_boundary cs hc]
        -- A boundary in front ends an empty line, by itself or with the line feed behind it.
        by_cases hpair : c = '\r' ∧ cs.head? = some '\n'
        · rcases hpair with ⟨rfl, hlf⟩
          rcases cs with _ | ⟨d, cs⟩
          · exact absurd hlf (by simp only [List.head?_nil, reduceCtorEq, not_false_eq_true])
          · rw [List.head?_cons, Option.some.injEq] at hlf
            rw [hlf]
            exact ⟨_, _, rfl⟩
        · exact ⟨_, _, splitLines_cons_boundary hc hpair⟩
      · rcases ih with ⟨boundary, rest, ih⟩
        have hplain : isBoundary c = false := Bool.eq_false_iff.mpr hc
        refine ⟨boundary, rest, ?_⟩
        rw [splitLines_cons_plain cs hplain, ih, lineText_cons_plain cs hplain, Line.consFirst]

theorem getLast?_cons_of_eq_some {c d : Char} {cs : List Char} (h : cs.getLast? = some d) :
    (c :: cs).getLast? = some d := by
  rw [List.getLast?_cons, h, Option.getD_some]

/-- Reading a text after one that leaves no open pair counts the lines of both. -/
theorem lineCount_read_append (a b : List Char)
    (h : (({} : Cursor).read a).afterReturn = false ∨ b.head? ≠ some '\n') :
    (({} : Cursor).read (a ++ b)).lineCount
      = (({} : Cursor).read a).lineCount + (({} : Cursor).read b).lineCount := by
  have hadd := Cursor.lineCount_read_add (({} : Cursor).read a) {} b h
  rw [Cursor.read_append, Nat.add_comm]
  exact hadd

theorem lineCount_read_cons {c : Char} {cs : List Char}
    (hpair : ¬ (c = '\r' ∧ cs.head? = some '\n')) :
    (({} : Cursor).read (c :: cs)).lineCount
      = (if isBoundary c then 1 else 0) + (({} : Cursor).read cs).lineCount := by
  have hone : (({} : Cursor).read [c]).lineCount = if isBoundary c then 1 else 0 := by
    simp only [Cursor.read, List.foldl_cons, List.foldl_nil, Cursor.advance, Bool.and_false,
      Bool.false_eq_true, if_false]
    split <;> rfl
  rw [← hone]
  refine lineCount_read_append [c] cs ?_
  -- Only a carriage return leaves a pair open, and then no line feed follows.
  by_cases hcr : c = '\r'
  · exact Or.inr (fun hlf => hpair ⟨hcr, hlf⟩)
  · left
    simp only [Cursor.read, List.foldl_cons, List.foldl_nil, Cursor.advance]
    split
    · exact beq_eq_false_iff_ne.mpr hcr
    · rfl

/-- A text cut where a line starts, but not inside a pair, has the lines of
    the first piece, as many as a pass counts in it, and then those of the
    second. -/
theorem splitLines_append (opening rest : List Char) (hopening : EndsLine opening)
    (hpair : ¬ (opening.getLast? = some '\r' ∧ rest.head? = some '\n')) :
    ∃ done, splitLines (opening ++ rest) = done ++ splitLines rest ∧
      done.length = (({} : Cursor).read opening).lineCount ∧
      done.flatMap Line.chars = opening := by
  -- By the recursion of `splitLines`, so that each case puts one line or one
  -- character in front of what the rest of the opening gives.
  fun_induction splitLines opening with
  | case1 => exact ⟨[], rfl, rfl, rfl⟩
  | case2 cs ih =>
      rcases ih (fun d hd => hopening d (getLast?_cons_of_eq_some (getLast?_cons_of_eq_some hd)))
        (fun h => hpair ⟨getLast?_cons_of_eq_some (getLast?_cons_of_eq_some h.1), h.2⟩)
        with ⟨done, hsplit, hlength, hchars⟩
      refine ⟨⟨[], ['\r', '\n']⟩ :: done, ?_, ?_, ?_⟩
      · rw [List.cons_append, List.cons_append, splitLines, hsplit, List.cons_append]
      · have hcount := lineCount_read_append ['\r', '\n'] cs (Or.inl (by decide))
        rw [List.length_cons, hlength, Nat.add_comm]
        exact hcount.symm
      · rw [List.flatMap_cons, hchars]
        rfl
  | case3 c cs hne hc ih =>
      have hfirst : ¬ (c = '\r' ∧ cs.head? = some '\n') := by
        rintro ⟨rfl, hlf⟩
        rcases List.head?_eq_some_iff.mp hlf with ⟨ds, hds⟩
        exact hne ds rfl hds
      -- The opening may be this one character, and then the pair is excluded
      -- by what follows the opening.
      have hopen : ¬ (c = '\r' ∧ (cs ++ rest).head? = some '\n') := by
        rintro ⟨rfl, hlf⟩
        cases cs with
        | nil => exact hpair ⟨rfl, hlf⟩
        | cons d cs => exact hfirst ⟨rfl, hlf⟩
      rcases ih (fun d hd => hopening d (getLast?_cons_of_eq_some hd))
        (fun h => hpair ⟨getLast?_cons_of_eq_some h.1, h.2⟩) with ⟨done, hsplit, hlength, hchars⟩
      refine ⟨⟨[], [c]⟩ :: done, ?_, ?_, ?_⟩
      · rw [List.cons_append, splitLines_cons_boundary hc hopen, hsplit, List.cons_append]
      · rw [lineCount_read_cons hfirst, if_pos hc, List.length_cons, hlength, Nat.add_comm]
      · rw [List.flatMap_cons, hchars]
        rfl
  | case4 c cs hne hc ih =>
      rcases ih (fun d hd => hopening d (getLast?_cons_of_eq_some hd))
        (fun h => hpair ⟨getLast?_cons_of_eq_some h.1, h.2⟩) with ⟨done, hsplit, hlength, hchars⟩
      cases done with
      | nil =>
          -- A plain character that ends the opening is no end of a line.
          rw [List.flatMap_nil] at hchars
          rw [← hchars] at hopening
          exact absurd (hopening c rfl) hc
      | cons line done =>
          refine ⟨⟨c :: line.text, line.boundary⟩ :: done, ?_, ?_, ?_⟩
          · rw [List.cons_append, splitLines_cons_plain _ (Bool.eq_false_iff.mpr hc), hsplit,
              List.cons_append, Line.consFirst, List.cons_append]
          · have hfirst : ¬ (c = '\r' ∧ cs.head? = some '\n') := by
              rintro ⟨rfl, -⟩
              exact hc (by decide)
            rw [lineCount_read_cons hfirst, if_neg hc, Nat.zero_add, ← hlength]
            rfl
          · rw [← hchars, List.flatMap_cons, List.flatMap_cons, Line.chars, Line.chars,
              List.cons_append, List.cons_append]

/-- The count at the start of a line is the number of that line, from zero. -/
theorem getElem?_splitLines (opening rest : List Char) (hopening : EndsLine opening)
    (hpair : ¬ (opening.getLast? = some '\r' ∧ rest.head? = some '\n')) :
    ∃ line, (splitLines (opening ++ rest))[(({} : Cursor).read opening).lineCount]? = some line ∧
      line.text = lineText rest ∧
      Line.startOf (splitLines (opening ++ rest)) (({} : Cursor).read opening).lineCount
        = byteLength opening := by
  rcases splitLines_append opening rest hopening hpair with ⟨done, hsplit, hlength, hchars⟩
  rcases exists_splitLines_cons rest with ⟨boundary, others, hrest⟩
  refine ⟨⟨lineText rest, boundary⟩, ?_, rfl, ?_⟩
  · rw [hsplit, ← hlength, List.getElem?_append_right (Nat.le_refl _), Nat.sub_self, hrest]
    rfl
  · rw [Line.startOf, hsplit, ← hlength, List.take_left, hchars]

/-- A place between a carriage return and the line feed that follows it. -/
def InsidePair (cs : List Char) (offset : Nat) : Prop :=
  ∃ a b, cs = a ++ '\r' :: '\n' :: b ∧ byteLength (a ++ ['\r']) = offset

theorem append_inj_of_byteLength {a b c d : List Char} (h : a ++ b = c ++ d)
    (hlength : byteLength a = byteLength c) : a = c ∧ b = d := by
  have hcut := splitAt?_byteLength_append a b
  rw [h, hlength, splitAt?_byteLength_append, Option.some.injEq, Prod.mk.injEq] at hcut
  exact ⟨hcut.1.symm, hcut.2.symm⟩

theorem insidePair_append_iff (before rest : List Char) :
    InsidePair (before ++ rest) (byteLength before)
      ↔ before.getLast? = some '\r' ∧ rest.head? = some '\n' := by
  constructor
  · rintro ⟨a, b, htext, hoffset⟩
    have hcut : before ++ rest = (a ++ ['\r']) ++ '\n' :: b := by
      rw [htext, List.append_assoc, List.singleton_append]
    -- Both are cuts of one text at one place.
    rcases append_inj_of_byteLength hcut hoffset.symm with ⟨rfl, rfl⟩
    exact ⟨List.getLast?_concat, rfl⟩
  · rintro ⟨hcr, hlf⟩
    rcases List.getLast?_eq_some_iff.mp hcr with ⟨a, rfl⟩
    rcases List.head?_eq_some_iff.mp hlf with ⟨b, rfl⟩
    exact ⟨a, b, by rw [List.append_assoc, List.singleton_append], rfl⟩

/-- Inside a pair there is no lead, for what precedes the place is a boundary. -/
theorem lead_eq_nil {opening lead rest : List Char} (hlead : IsPlain lead)
    (h : InsidePair (opening ++ lead ++ rest) (byteLength (opening ++ lead))) : lead = [] := by
  have hcr := ((insidePair_append_iff _ _).mp h).1
  rcases List.eq_nil_or_concat' lead with rfl | ⟨cs, c, rfl⟩
  · rfl
  · rw [← List.append_assoc, List.getLast?_concat, Option.some.injEq] at hcr
    have hplain := hlead c (List.mem_append_right cs List.mem_cons_self)
    rw [hcr] at hplain
    exact absurd hplain (by decide)

/-- A place outside pairs has the start of its line outside pairs, too. -/
theorem not_pair_of_not_insidePair {opening lead rest : List Char} (hlead : IsPlain lead)
    (h : ¬ InsidePair (opening ++ lead ++ rest) (byteLength (opening ++ lead))) :
    ¬ (opening.getLast? = some '\r' ∧ (lead ++ rest).head? = some '\n') := by
  rintro ⟨hcr, hlf⟩
  cases lead with
  | nil =>
      -- The place is the start of its line itself.
      rw [List.append_nil] at h
      exact h ((insidePair_append_iff opening rest).mpr ⟨hcr, hlf⟩)
  | cons c cs =>
      -- The line goes on with a plain character, which is no line feed.
      have hplain := hlead c List.mem_cons_self
      rw [List.cons_append, List.head?_cons, Option.some.injEq] at hlf
      rw [hlf] at hplain
      exact absurd hplain (by decide)

/-- The second half of a pair is not counted. -/
theorem lineCount_read_pair (a : List Char) :
    (({} : Cursor).read (a ++ ['\r', '\n'])).lineCount
      = (({} : Cursor).read (a ++ ['\r'])).lineCount := by
  rw [Cursor.read_append, Cursor.read_append]
  rfl

/-- Inside a pair the count is the number of the line after the pair, which
    starts a byte further on. -/
theorem startOf_of_insidePair (opening rest : List Char)
    (h : InsidePair (opening ++ rest) (byteLength opening)) :
    Line.startOf (splitLines (opening ++ rest)) (({} : Cursor).read opening).lineCount
      = byteLength opening + 1 := by
  rcases (insidePair_append_iff _ _).mp h with ⟨hcr, hlf⟩
  rcases List.getLast?_eq_some_iff.mp hcr with ⟨a, rfl⟩
  rcases List.head?_eq_some_iff.mp hlf with ⟨b, rfl⟩
  -- The pass stops one byte short of where the line before it ends, and has
  -- counted that line already.
  have htext : a ++ ['\r'] ++ '\n' :: b = a ++ ['\r', '\n'] ++ b := by
    simp only [List.append_assoc, List.cons_append, List.nil_append]
  have hpair : ¬ ((a ++ ['\r', '\n']).getLast? = some '\r' ∧ b.head? = some '\n') := by
    rintro ⟨hlast, -⟩
    rw [List.getLast?_append_of_ne_nil a (List.cons_ne_nil _ _)] at hlast
    exact absurd hlast (by decide)
  rcases getElem?_splitLines (a ++ ['\r', '\n']) b (endsLine_pair a) hpair with ⟨-, -, -, hstart⟩
  rw [htext, ← lineCount_read_pair, hstart]
  simp only [byteLength_append, byteLength_cons, byteLength_nil]
  rfl

end Text

end Diagnostics
