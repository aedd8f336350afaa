import Diagnostics.Render
import Diagnostics.Sink.Recorder

/-!
# What Reaches an Outlet

A text that is not empty is offered to an outlet in exactly one write,
whatever the schedule of faults. On a reliable outlet it arrives.

That no text of a sink is empty is what makes this apply. A rendered message, a
notice and a summary all end a line, and the line feed at their end is in them
with colour and without.

## Theorems

* `Outlet.offered_emit`: A text is offered once.
* `Outlet.chunks_emit`: It arrives if that write does not fail.
* `Message.render?_ne_empty`: No message is rendered as nothing.
* `Recorder.limitNotice_ne_empty`, `Recorder.summary_ne_empty`: The last words
  of a sink are not empty either.
-/

namespace Diagnostics

namespace Outlet

theorem emit_of_ne_empty (outlet : Outlet) {text : String} (htext : text ≠ "") :
    outlet.emit text =
      if (outlet.write text).2.isSome then outlet.write text else (outlet.write text).1.flush := by
  have hempty : text.isEmpty = false := by
    rw [Bool.eq_false_iff]
    intro h
    exact htext (String.isEmpty_iff.mp h)
  rw [emit, hempty]
  rfl

theorem faults_emit (outlet : Outlet) (text : String) :
    (outlet.emit text).1.faults = outlet.faults := by
  unfold emit
  by_cases hempty : text.isEmpty
  · rw [if_pos hempty]
    rfl
  · rw [if_neg hempty]
    by_cases hfault : (outlet.write text).2.isSome
    · rw [if_pos hfault]
      rfl
    · rw [if_neg hfault]
      rfl

/-- A flush offers nothing. -/
theorem offered_flush (outlet : Outlet) : outlet.flush.1.offered = outlet.offered := by
  unfold flush offered
  rw [List.filterMap_append]
  exact List.append_nil _

theorem chunks_flush (outlet : Outlet) : outlet.flush.1.chunks = outlet.chunks := by
  unfold flush chunks
  rw [List.filterMap_append]
  exact List.append_nil _

theorem offered_write (outlet : Outlet) (text : String) :
    (outlet.write text).1.offered = outlet.offered ++ [text] := by
  unfold write offered
  rw [List.filterMap_append]
  rfl

theorem chunks_write (outlet : Outlet) (text : String) :
    (outlet.write text).1.chunks =
      outlet.chunks ++ if (outlet.write text).2.isSome then [] else [text] := by
  unfold write chunks
  rw [List.filterMap_append]
  cases outlet.faults.write outlet.nextWrite with
  | none => rfl
  | some fault => rfl

/-- A text is offered once, whether or not it arrives. -/
theorem offered_emit (outlet : Outlet) {text : String} (htext : text ≠ "") :
    (outlet.emit text).1.offered = outlet.offered ++ [text] := by
  -- A flush, where there is one, adds nothing to what the write has offered.
  rw [emit_of_ne_empty outlet htext, ← offered_write]
  by_cases hfault : (outlet.write text).2.isSome
  · rw [if_pos hfault]
  · rw [if_neg hfault, offered_flush]

/-- A text arrives exactly if the write that offers it does not fail. A failed
    flush takes nothing back. -/
theorem chunks_emit (outlet : Outlet) {text : String} (htext : text ≠ "") :
    (outlet.emit text).1.chunks =
      outlet.chunks ++ if (outlet.faults.write outlet.nextWrite).isSome then [] else [text] := by
  have hwrite := chunks_write outlet text
  -- The write settles it. A flush behind it changes nothing.
  rw [emit_of_ne_empty outlet htext]
  by_cases hfault : (outlet.write text).2.isSome
  · rw [if_pos hfault, hwrite]
    rfl
  · rw [if_neg hfault, chunks_flush, hwrite]
    rfl

theorem chunks_emit_of_never {outlet : Outlet} (houtlet : outlet.faults = .never)
    {text : String} (htext : text ≠ "") :
    (outlet.emit text).1.chunks = outlet.chunks ++ [text] := by
  rw [chunks_emit outlet htext, houtlet]
  rfl

end Outlet

/-- What ends with a line feed is something, with its styles or without. -/
theorem Styled.write_append_lineFeed_ne_empty (colored : Bool) (styled : Styled) :
    Styled.write colored (styled ++ [.text ['\n']]) ≠ "" := by
  intro h
  have hchars := congrArg String.toList h
  rw [write, chars_append, String.toList_ofList] at hchars
  exact absurd hchars (List.append_ne_nil_of_right_ne_nil _ (List.cons_ne_nil _ _))

namespace Message

/-- All three shapes have the label in them and end with a line feed. -/
theorem exists_of_styled? {message : Message} {withSnippet : Bool} {width : Nat} {styled : Styled}
    (h : message.styled? withSnippet width = some styled) :
    ∃ front back, styled = front ++ message.label ++ back ++ [.text ['\n']] := by
  have hheadline (place : Styled) :
      ∃ front back, message.headline place = front ++ message.label ++ back ++ [.text ['\n']] :=
    ⟨.style .bold :: place, [.style .reset], by
      simp only [headline, List.cons_append, List.append_assoc, List.nil_append]⟩
  -- By the shapes: two of one line, and the one with a snippet.
  rcases styled?_cases h with ⟨-, rfl⟩ | ⟨source, -, -, rfl⟩ | ⟨source, excerpt, -, -, -, rfl⟩
  · exact hheadline []
  · exact hheadline [placeOfPath source.displayPath]
  · exact ⟨[.style .bold, placeOfExcerpt source.displayPath excerpt],
      [.text ['\n'], .style .reset, .text excerpt.shown.before, .style .green,
        .text excerpt.shown.marked, .style .reset, .text excerpt.shown.after, .text ['\n'],
        .style .green, .text excerpt.shown.indent, .text excerpt.shown.marker,
        .style .reset], by
      simp only [snippet, List.append_assoc, List.cons_append, List.nil_append]⟩

theorem render?_ne_empty {message : Message} {terminal : Terminal} {options : Options}
    {text : String} (h : message.render? terminal options = some text) : text ≠ "" := by
  rcases Option.map_eq_some_iff.mp h with ⟨styled, hstyled, rfl⟩
  rcases exists_of_styled? hstyled with ⟨front, back, rfl⟩
  exact Styled.write_append_lineFeed_ne_empty terminal.colored _

end Message

namespace Recorder

theorem limitNotice_ne_empty (r : Recorder) : r.limitNotice ≠ "" := by
  intro h
  exact absurd (String.append_eq_empty_iff.mp h).2 (by decide)

theorem summary_ne_empty (r : Recorder) : r.summary ≠ "" := by
  intro h
  exact absurd (String.append_eq_empty_iff.mp h).2 (by decide)

end Recorder

end Diagnostics
