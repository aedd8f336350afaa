import Diagnostics.Proofs.Sink.ClosedForm

/-!
# Telling Texts Apart

A sink writes messages, limit notices and summaries, and what it has written
shows which is which. A message has a colon behind its label, wherever that
stands and whatever the message says. The last words of a sink have none: they
are counts, which are all letters, digits and blanks, and a few words more. Of
these, a notice has a parenthesis and a summary has not.

It follows that one can speak of the notices in an output without saying where
they came from.

## Main definitions

* `IsLimitNotice`, `IsSummary`: What the two look like, for any counts.
* `IsWording`: Letters, digits and blanks.

## Theorems

* `IsWording.not_mem`: No other sign is in what is worded so.
* `Counts.isWording_text`: Counts are worded so.
* `Message.not_closing_of_render?`: No message looks like a notice or a summary.
* `not_isSummary_of_isLimitNotice`: No notice looks like a summary.
* `Recorder.closingWords_of_hitsLimit`, `Recorder.isSummary_of_mem_closingWords`:
  What closing words look like.
-/

namespace Diagnostics

/-- The words with which printing ends at a limit, whatever was counted by then. -/
def IsLimitNotice (text : String) : Prop :=
  ∃ counts : Counts, text = counts.text ++ " reached (disable error limit with --error-limit=0)\n"

/-- The words of a summary, whatever was counted. -/
def IsSummary (text : String) : Prop :=
  ∃ counts : Counts, text = counts.text ++ "\n"

/-- Letters, digits and blanks. -/
def IsWording (text : String) : Prop :=
  ∀ c ∈ text.toList, c.isAlphanum = true ∨ c = ' '

/-- Whether a text is wording can be decided. -/
instance (text : String) : Decidable (IsWording text) :=
  List.decidableBAll _ _

/-- No other sign is among letters, digits and blanks. -/
theorem IsWording.not_mem {text : String} (h : IsWording text) {c : Char}
    (hsign : c.isAlphanum = false) (hblank : c ≠ ' ') : c ∉ text.toList := by
  intro hmem
  rcases h c hmem with halphanum | hspace
  · exact absurd (hsign.symm.trans halphanum) Bool.false_ne_true
  · exact hblank hspace

theorem IsWording.append {a b : String} (ha : IsWording a) (hb : IsWording b) :
    IsWording (a ++ b) := by
  intro c hmem
  rw [String.toList_append] at hmem
  rcases List.mem_append.mp hmem with hleft | hright
  · exact ha c hleft
  · exact hb c hright

theorem isWording_toString (n : Nat) : IsWording (toString n) := by
  intro c hmem
  rw [Nat.toString_eq_ofList_toDigits, String.toList_ofList] at hmem
  have hdigit : c.isDigit = true :=
    Nat.isDigit_of_mem_toDigits (by decide) (Nat.le_refl 10) hmem
  rw [Char.isAlphanum, hdigit, Bool.or_true]
  exact Or.inl rfl

theorem Kind.isWording_label (kind : Kind) : IsWording kind.label := by
  cases kind <;> decide

theorem isWording_plural (count : Nat) {noun : String} (h : IsWording noun) :
    IsWording (plural count noun) := by
  have hblank : IsWording " " := by decide
  have hs : IsWording (if count = 1 then "" else "s") := by
    by_cases hone : count = 1
    · rw [if_pos hone]
      decide
    · rw [if_neg hone]
      decide
  exact (((isWording_toString count).append hblank).append h).append hs

theorem Counts.isWording_text (counts : Counts) : IsWording counts.text := by
  have hwarning : IsWording "warning" := by decide
  have herror : IsWording "error" := by decide
  have hand : IsWording " and " := by decide
  -- By the numbers: none at all, only of one kind, and of both.
  unfold Counts.text
  rcases counts with ⟨_ | errors, _ | warnings⟩
  · decide
  · exact isWording_plural _ hwarning
  · exact isWording_plural _ herror
  · exact ((isWording_plural _ hwarning).append hand).append (isWording_plural _ herror)

/-- Behind counts, a sign that is not worded can only be in what follows. -/
theorem not_mem_counts_append (counts : Counts) {c : Char} {rest : String}
    (hsign : c.isAlphanum = false) (hblank : c ≠ ' ') (hrest : c ∉ rest.toList) :
    c ∉ (counts.text ++ rest).toList := by
  rw [String.toList_append, List.mem_append, not_or]
  exact ⟨counts.isWording_text.not_mem hsign hblank, hrest⟩

theorem IsLimitNotice.colon_not_mem {text : String} (h : IsLimitNotice text) :
    ':' ∉ text.toList := by
  rcases h with ⟨counts, rfl⟩
  exact not_mem_counts_append counts (by decide) (by decide) (by decide)

theorem IsSummary.colon_not_mem {text : String} (h : IsSummary text) : ':' ∉ text.toList := by
  rcases h with ⟨counts, rfl⟩
  exact not_mem_counts_append counts (by decide) (by decide) (by decide)

theorem not_isSummary_of_isLimitNotice {text : String} (h : IsLimitNotice text) :
    ¬ IsSummary text := by
  rcases h with ⟨counts, rfl⟩
  intro ⟨counts', hsame⟩
  -- The notice has a parenthesis in it, and a summary has none.
  have hparenthesis : '(' ∉ (counts'.text ++ "\n").toList :=
    not_mem_counts_append counts' (by decide) (by decide) (by decide)
  refine hparenthesis ?_
  rw [← hsame, String.toList_append]
  exact List.mem_append_right _ (by decide)

namespace Message

theorem colon_mem_label (message : Message) (colored : Bool) :
    ':' ∈ Styled.chars colored message.label := by
  have hpiece : Piece.text (message.kind.label.toList ++ [':', ' ']) ∈ message.label :=
    List.mem_cons_of_mem _ List.mem_cons_self
  exact List.mem_flatMap.mpr
    ⟨_, hpiece, List.mem_append_right message.kind.label.toList List.mem_cons_self⟩

theorem colon_mem_of_render? {message : Message} {terminal : Terminal} {options : Options}
    {text : String} (h : message.render? terminal options = some text) : ':' ∈ text.toList := by
  rcases Option.map_eq_some_iff.mp h with ⟨styled, hstyled, rfl⟩
  rcases exists_of_styled? hstyled with ⟨front, back, rfl⟩
  rw [Styled.write, String.toList_ofList, Styled.chars_append, Styled.chars_append,
    Styled.chars_append]
  -- It is in the label, between what stands before and after.
  exact List.mem_append_left _ (List.mem_append_left _
    (List.mem_append_right _ (message.colon_mem_label terminal.colored)))

theorem not_closing_of_render? {message : Message} {terminal : Terminal} {options : Options}
    {text : String} (h : message.render? terminal options = some text) :
    ¬ IsLimitNotice text ∧ ¬ IsSummary text := by
  have hcolon := colon_mem_of_render? h
  exact ⟨fun hnotice => hnotice.colon_not_mem hcolon,
    fun hsummary => hsummary.colon_not_mem hcolon⟩

end Message

namespace Recorder

variable {policy : Policy} {options : Options} {messages start : List Message}

theorem closingWords_of_hitsLimit
    (h : HitsLimit policy options (messages.countP Message.isError)) :
    ∃ notice, closingWords policy options messages start = [notice] ∧ IsLimitNotice notice := by
  rw [closingWords, if_pos h]
  exact ⟨_, rfl, _, rfl⟩

theorem isSummary_of_mem_closingWords
    (h : ¬ HitsLimit policy options (messages.countP Message.isError)) {text : String}
    (hmem : text ∈ closingWords policy options messages start) : IsSummary text := by
  rw [closingWords, if_neg h] at hmem
  by_cases howes : policy.summarizes = true ∧ options.level ≤ .info ∧ messages ≠ []
  · rw [if_pos howes] at hmem
    exact ⟨_, List.mem_singleton.mp hmem⟩
  · rw [if_neg howes] at hmem
    exact absurd hmem List.not_mem_nil

end Recorder

end Diagnostics
