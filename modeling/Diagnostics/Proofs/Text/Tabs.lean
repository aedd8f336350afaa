import Diagnostics.Proofs.Text.Columns
import Mathlib.Data.List.Forall2

/-!
# Tabs as Blanks

What a tab is written as depends on everything before it, so expansion is not a
map over characters, and cutting a text in two and expanding both parts is in
general not expanding the text.

It can be told without a running column all the same. Cut the expanded text
into one piece for each character. The piece of a tab is one blank or two, every
other piece is the character itself, and what follows the piece of a tab starts
at an even column. The columns are those of the expanded text, so nothing has to
be carried along. `IsExpansion` says this of any two texts, and
`isExpansionFrom_iff` says that it leaves no choice.

Of the column where a text begins only the parity matters. Expansion therefore
starts afresh wherever the column is even, and what has been expanded has no
tabs left to expand again.

## Main definitions

* `IsPieceOf`: What a character may be written as.
* `IsExpansionFrom`: The expansion of a text that starts at a given column.
* `IsExpansion`: The expansion of a text that starts a line.

## Theorems

* `mem_expandTabs`: Expansion puts in blanks for tabs, and nothing else.
* `isExpansionFrom_cons_iff`: An expansion begins with the piece of the first
  character.
* `isExpansionFrom_iff`: There is one expansion, the one that is computed.
* `expandFrom_congr`: Only the parity of the first column matters.
* `expandTabs_prefixStable`: What expansion does to a text and to more of it.
-/

namespace Diagnostics

namespace Text

theorem mem_expandFrom {column : Nat} {cs : List Char} {c : Char}
    (h : c ∈ expandFrom column cs) : c = ' ' ∨ c ∈ cs ∧ c ≠ '\t' := by
  induction cs generalizing column with
  | nil => exact absurd h List.not_mem_nil
  | cons d cs ih =>
      rw [expandFrom] at h
      by_cases hd : d = '\t'
      · rw [if_pos hd] at h
        rcases List.mem_append.mp h with hblank | hrest
        · exact Or.inl (List.eq_of_mem_replicate hblank)
        · exact (ih hrest).imp_right (And.imp_left (List.mem_cons_of_mem d))
      · rw [if_neg hd] at h
        rcases List.mem_cons.mp h with rfl | hrest
        · exact Or.inr ⟨List.mem_cons_self, hd⟩
        · exact (ih hrest).imp_right (And.imp_left (List.mem_cons_of_mem d))

/-- Expansion puts in blanks for tabs, and nothing else. -/
theorem mem_expandTabs {cs : List Char} {c : Char} (h : c ∈ expandTabs cs) :
    c = ' ' ∨ c ∈ cs ∧ c ≠ '\t' := by
  rw [expandTabs_eq_expandFrom] at h
  exact mem_expandFrom h

theorem tab_not_mem_expandTabs (cs : List Char) : '\t' ∉ expandTabs cs := by
  intro h
  rcases mem_expandTabs h with hblank | ⟨-, htab⟩
  · exact absurd hblank (by decide)
  · exact htab rfl

/-- What a character may be written as: a tab as one blank or two, and any other
    as itself. -/
def IsPieceOf (c : Char) (piece : List Char) : Prop :=
  if c = '\t' then piece = [' '] ∨ piece = [' ', ' '] else piece = [c]

theorem isPieceOf_iff_of_ne {c : Char} (hc : c ≠ '\t') (piece : List Char) :
    IsPieceOf c piece ↔ piece = [c] := by
  rw [IsPieceOf, if_neg hc]

/-- A text that starts at `column`, written in pieces, of which those of the tabs
    end at even columns. -/
def IsExpansionFrom (column : Nat) (cs expanded : List Char) : Prop :=
  ∃ pieces, List.Forall₂ IsPieceOf cs pieces ∧ expanded = pieces.flatten ∧
    ∀ i, cs[i]? = some '\t' → (column + (pieces.take (i + 1)).flatten.length) % 2 = 0

/-- A text that starts a line, with each tab as one blank or two so that what
    follows it starts at an even column. -/
def IsExpansion (cs expanded : List Char) : Prop :=
  IsExpansionFrom 0 cs expanded

/-- Of one blank and two, the one that leads to an even column is as long as the
    way to the next tab stop. -/
theorem isPieceOf_tab_iff (column : Nat) (piece : List Char) :
    IsPieceOf '\t' piece ∧ (column + piece.length) % 2 = 0 ↔
      piece = List.replicate (tabWidth column) ' ' := by
  unfold IsPieceOf tabWidth tabStop
  rw [if_pos rfl]
  -- By the parity of the column, which decides how wide the tab is.
  rcases Nat.mod_two_eq_zero_or_one column with heven | hodd
  · -- A tab at an even column takes two blanks.
    rw [heven]
    constructor
    · rintro ⟨rfl | rfl, hstop⟩
      · simp only [List.length_singleton] at hstop
        omega
      · rfl
    · rintro rfl
      exact ⟨Or.inr rfl, by simp only [List.length_replicate]; omega⟩
  · -- One at an odd column takes one.
    rw [hodd]
    constructor
    · rintro ⟨rfl | rfl, hstop⟩
      · rfl
      · simp only [List.length_cons, List.length_nil] at hstop
        omega
    · rintro rfl
      exact ⟨Or.inl rfl, by simp only [List.length_replicate]; omega⟩

theorem isExpansionFrom_nil_iff (column : Nat) (expanded : List Char) :
    IsExpansionFrom column [] expanded ↔ expanded = [] := by
  constructor
  · rintro ⟨pieces, hpieces, rfl, -⟩
    rw [List.forall₂_nil_left_iff.mp hpieces, List.flatten_nil]
  · rintro rfl
    exact ⟨[], .nil, rfl, fun i hi => absurd hi (by simp only [List.getElem?_nil, reduceCtorEq,
      not_false_eq_true])⟩

/-- An expansion begins with the piece of the first character, and goes on from
    the column that this piece ends at. -/
theorem isExpansionFrom_cons_iff (column : Nat) (c : Char) (cs expanded : List Char) :
    IsExpansionFrom column (c :: cs) expanded ↔
      ∃ piece rest, expanded = piece ++ rest ∧ IsPieceOf c piece ∧
        (c = '\t' → (column + piece.length) % 2 = 0) ∧
        IsExpansionFrom (column + piece.length) cs rest := by
  -- The columns of all later pieces are put off by the length of the first one.
  have hshift (piece : List Char) (pieces : List (List Char)) (i : Nat) :
      column + ((piece :: pieces).take (i + 1)).flatten.length
        = column + piece.length + (pieces.take i).flatten.length := by
    rw [List.take_succ_cons, List.flatten_cons, List.length_append, Nat.add_assoc]
  constructor
  · rintro ⟨pieces, hpieces, rfl, hstops⟩
    cases hpieces with
    | @cons _ piece _ pieces hpiece hrest =>
        -- The first tab stop is that of the first piece, the others are those of the rest.
        refine ⟨piece, pieces.flatten, rfl, hpiece, fun hc => ?_, pieces, hrest, rfl,
          fun i hi => ?_⟩
        · have hstop := hstops 0 (congrArg some hc)
          rwa [hshift, List.take_zero, List.flatten_nil, List.length_nil, Nat.add_zero] at hstop
        · have hstop := hstops (i + 1) hi
          rwa [hshift] at hstop
  · rintro ⟨piece, rest, rfl, hpiece, hfirst, pieces, hpieces, rfl, hstops⟩
    refine ⟨piece :: pieces, .cons hpiece hpieces, rfl, fun i hi => ?_⟩
    rw [hshift]
    cases i with
    | zero =>
        rw [List.take_zero, List.flatten_nil, List.length_nil, Nat.add_zero]
        exact hfirst (Option.some.inj hi)
    | succ i => exact hstops i hi

/-- There is exactly one expansion, and it is the one that is computed. -/
theorem isExpansionFrom_iff (column : Nat) (cs expanded : List Char) :
    IsExpansionFrom column cs expanded ↔ expanded = expandFrom column cs := by
  -- On the text, for every column and every candidate: the first piece is
  -- determined by the column, and with it the column of the rest.
  induction cs generalizing column expanded with
  | nil => exact isExpansionFrom_nil_iff column expanded
  | cons c cs ih =>
      rw [isExpansionFrom_cons_iff, expandFrom]
      by_cases hc : c = '\t'
      · subst hc
        rw [if_pos rfl]
        constructor
        · rintro ⟨piece, rest, rfl, hpiece, hstop, hrest⟩
          have hblanks := (isPieceOf_tab_iff column piece).mp ⟨hpiece, hstop rfl⟩
          rw [(ih _ _).mp hrest, hblanks, List.length_replicate]
        · rintro rfl
          rcases (isPieceOf_tab_iff column _).mpr rfl with ⟨hpiece, hstop⟩
          refine ⟨_, _, rfl, hpiece, fun _ => hstop, (ih _ _).mpr ?_⟩
          rw [List.length_replicate]
      · rw [if_neg hc]
        constructor
        · rintro ⟨piece, rest, rfl, hpiece, -, hrest⟩
          rw [(ih _ _).mp hrest, (isPieceOf_iff_of_ne hc piece).mp hpiece]
          rfl
        · rintro rfl
          exact ⟨[c], _, rfl, (isPieceOf_iff_of_ne hc _).mpr rfl, fun htab => absurd htab hc,
            (ih _ _).mpr rfl⟩

theorem tabWidth_congr {m n : Nat} (h : m % 2 = n % 2) : tabWidth m = tabWidth n := by
  unfold tabWidth tabStop
  rw [h]

/-- Of the column at which a text starts only the parity matters. -/
theorem expandFrom_congr {m n : Nat} (h : m % 2 = n % 2) (cs : List Char) :
    expandFrom m cs = expandFrom n cs := by
  induction cs generalizing m n with
  | nil => rfl
  | cons c cs ih =>
      -- Both columns move by the same width, so their parities stay together.
      have htab : (m + tabWidth n) % 2 = (n + tabWidth n) % 2 := by omega
      have hplain : (m + 1) % 2 = (n + 1) % 2 := by omega
      rw [expandFrom, expandFrom, tabWidth_congr h, ih htab, ih hplain]

/-- At an even column expansion starts afresh. -/
theorem expandTabs_append_of_even {a : List Char} (heven : expandedWidth a % 2 = 0)
    (b : List Char) : expandTabs (a ++ b) = expandTabs a ++ expandTabs b := by
  rw [expandTabs_append, expandFrom_congr (n := 0) heven, ← expandTabs_eq_expandFrom]

/-- What has no tab is its own expansion. -/
theorem expandTabs_of_not_mem {cs : List Char} (h : '\t' ∉ cs) : expandTabs cs = cs := by
  rw [expandTabs_eq_expandFrom, expandFrom_of_not_mem 0 cs h]

/-- What expansion does to a text, with whatever behind it.

    The expanded text is as long as the text measures. It stays as it is when
    the text goes on, and the rest is expanded as if it started a line, if the
    column it starts at is even. It has no tabs. It is the only text that one
    gets by writing each tab as one blank or two so that what follows starts at
    an even column, and everything else as it is. Expanding it again does
    nothing. -/
theorem expandTabs_prefixStable (a b : List Char) :
    (expandTabs a).length = expandedWidth a ∧
      expandTabs a <+: expandTabs (a ++ b) ∧
      (expandedWidth a % 2 = 0 →
        (expandTabs (a ++ b)).drop (expandedWidth a) = expandTabs b) ∧
      '\t' ∉ expandTabs a ∧
      (∀ expanded, IsExpansion a expanded ↔ expanded = expandTabs a) ∧
      expandTabs (expandTabs a) = expandTabs a := by
  refine ⟨length_expandTabs a, ?_, fun heven => ?_, tab_not_mem_expandTabs a, fun expanded => ?_,
    expandTabs_of_not_mem (tab_not_mem_expandTabs a)⟩
  · rw [expandTabs_append]
    exact List.prefix_append _ _
  · -- Cutting off the width cuts off the expanded text, which is as long.
    rw [expandTabs_append_of_even heven, ← length_expandTabs, List.drop_left]
  · rw [IsExpansion, isExpansionFrom_iff, expandTabs_eq_expandFrom]

/-- Behind a letter a tab is one blank, and leads to an even column. The next one
    is two blanks there, as it would be at the start of a line. -/
theorem expandTabs_prefixStable_twoTabs :
    expandedWidth ['a', '\t'] % 2 = 0 ∧
      (expandTabs (['a', '\t'] ++ ['\t', 'b'])).drop 2 = [' ', ' ', 'b'] :=
  ⟨by decide, (expandTabs_prefixStable ['a', '\t'] ['\t', 'b']).2.2.1 (by decide)⟩

end Text

end Diagnostics
