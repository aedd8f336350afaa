import Diagnostics.Proofs.Text.Bytes
import Diagnostics.Proofs.Text.Numbering

/-!
# Line Feeds with Returns before Them

The same text is kept with two line endings, with a line feed alone or with a
carriage return before each one. Written the other way a text is longer by as
many bytes as it has line feeds, and a place in it moves on by the number of
line feeds before it.

Nothing is said about a place that the two texts do not share. Lines are the
same in both: they are as many, a line starts after the line feed and not after
the return, and each ends where its boundary begins, whichever half of it comes
first. For the count of lines there may be no other returns in the text, since
a return right before a line feed would turn one boundary into two.

## Main definitions

* `withReturns`: A text with a return before each line feed.
* `offsetWithReturns`: Where an offset of the text lies then.

## Theorems

* `offsetWithReturns_append`: A place moves to the end of what was before it.
* `endsLine_withReturns`: A line starts where it did.
* `lineText_withReturns`: It has the same text.
* `lineCount_read_withReturns`: And as many lines come before it.
-/

namespace Diagnostics

namespace Text

/-- The byte of a line feed. -/
def lineFeed : UInt8 := 10

/-- A text with a carriage return before each line feed. -/
def withReturns (cs : List Char) : List Char :=
  cs.flatMap fun c => if c = '\n' then ['\r', '\n'] else [c]

/-- Where an offset of a text lies in the text with returns: further on by the
    line feeds among the bytes before it. -/
def offsetWithReturns (cs : List Char) (offset : Nat) : Nat :=
  offset + ((bytes cs).take offset).count lineFeed

theorem withReturns_append (a b : List Char) :
    withReturns (a ++ b) = withReturns a ++ withReturns b := by
  rw [withReturns, List.flatMap_append]
  rfl

theorem withReturns_cons_lineFeed (cs : List Char) :
    withReturns ('\n' :: cs) = '\r' :: '\n' :: withReturns cs := rfl

theorem withReturns_cons_of_ne {c : Char} (hc : c ≠ '\n') (cs : List Char) :
    withReturns (c :: cs) = c :: withReturns cs := by
  rw [withReturns, List.flatMap_cons, if_neg hc]
  rfl

theorem ne_lineFeed_of_plain {c : Char} (hc : isBoundary c = false) : c ≠ '\n' := by
  rintro rfl
  exact absurd hc (by decide)

/-- There is nothing to put a return before on a line. -/
theorem withReturns_of_isPlain {cs : List Char} (h : IsPlain cs) : withReturns cs = cs := by
  induction cs with
  | nil => rfl
  | cons c cs ih =>
      have hc := ne_lineFeed_of_plain (h c List.mem_cons_self)
      rw [withReturns_cons_of_ne hc, ih fun d hd => h d (List.mem_cons_of_mem c hd)]

theorem byteLength_withReturns (cs : List Char) :
    byteLength (withReturns cs) = byteLength cs + cs.count '\n' := by
  induction cs with
  | nil => rfl
  | cons c cs ih =>
      by_cases hc : c = '\n'
      · have hreturn : Char.utf8Size '\r' = 1 := rfl
        rw [hc, withReturns_cons_lineFeed, List.count_cons_self]
        simp only [byteLength_cons, ih, hreturn]
        omega
      · rw [withReturns_cons_of_ne hc, byteLength_cons, byteLength_cons, ih,
          List.count_cons_of_ne hc, Nat.add_assoc]

/-- A place moves to the end of what was before it. -/
theorem offsetWithReturns_append (a b : List Char) :
    offsetWithReturns (a ++ b) (byteLength a) = byteLength (withReturns a) := by
  have hcount : (bytes a).count lineFeed = a.count '\n' := count_bytes (c := '\n') (by decide) a
  rw [offsetWithReturns, bytes_append, ← length_bytes a, List.take_left, hcount, length_bytes,
    byteLength_withReturns]

theorem endsLine_withReturns {cs : List Char} (h : EndsLine cs) : EndsLine (withReturns cs) := by
  rcases List.eq_nil_or_concat' cs with rfl | ⟨cs, c, rfl⟩
  · exact endsLine_nil
  · have hc : isBoundary c = true := h c List.getLast?_concat
    rw [withReturns_append]
    by_cases hfeed : c = '\n'
    · -- A line feed still comes last, behind its return.
      rw [hfeed]
      exact endsLine_pair (withReturns cs)
    · rw [withReturns_cons_of_ne hfeed]
      exact endsLine_concat hc _

/-- A line ends at its boundary, of which the return is the first half. -/
theorem lineText_withReturns (cs : List Char) : lineText (withReturns cs) = lineText cs := by
  induction cs with
  | nil => rfl
  | cons c cs ih =>
      by_cases hboundary : isBoundary c = true
      · rw [lineText_cons_boundary cs hboundary]
        by_cases hc : c = '\n'
        · rw [hc, withReturns_cons_lineFeed]
          exact lineText_cons_boundary _ (by decide)
        · rw [withReturns_cons_of_ne hc]
          exact lineText_cons_boundary _ hboundary
      · have hplain : isBoundary c = false := Bool.eq_false_iff.mpr hboundary
        rw [withReturns_cons_of_ne (ne_lineFeed_of_plain hplain), lineText_cons_plain _ hplain,
          lineText_cons_plain _ hplain, ih]

/-- A return and its line feed are one boundary, as the line feed alone was. -/
theorem lineCount_read_withReturns {cs : List Char} (h : '\r' ∉ cs) :
    (({} : Cursor).read (withReturns cs)).lineCount = (({} : Cursor).read cs).lineCount := by
  induction cs with
  | nil => rfl
  | cons c cs ih =>
      rw [List.mem_cons, not_or] at h
      -- Without returns there is no pair in the text as it was.
      have hsingle : ¬ (c = '\r' ∧ cs.head? = some '\n') := fun hpair => h.1 hpair.1.symm
      rw [lineCount_read_cons hsingle, ← ih h.2]
      by_cases hc : c = '\n'
      · rw [hc, withReturns_cons_lineFeed]
        exact lineCount_read_append ['\r', '\n'] (withReturns cs) (Or.inl (by decide))
      · rw [withReturns_cons_of_ne hc]
        exact lineCount_read_cons fun hpair => h.1 hpair.1.symm

end Text

end Diagnostics
