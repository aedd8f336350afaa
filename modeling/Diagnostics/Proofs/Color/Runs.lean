import Diagnostics.Proofs.Color.Messages
import Diagnostics.Proofs.Sink.Faults
import Diagnostics.Proofs.Sink.Quiet
import Mathlib.Data.List.Forall2

/-!
# Runs with Colour and Without

A recorder decides nothing by the colour of its terminal. What it counts and
keeps, where the limit cuts its output and what its last words are can all be
told from the messages, the policy and the options, so two runs that differ in
colour alone offer texts in pairs: one pair for each message that is printed,
with its escapes and without, and one for the closing words, which are the same
on both sides.

Which of the offered texts arrive depends on the schedule of faults and on how
many texts there were before, which is the same in both runs. So the pairs are
still pairs among what arrived.

## Theorems

* `IsShortest.unique`: There is one shortest start.
* `Recorder.exists_closing`: What a run prints and ends with, on any terminal.
* `Outlet.forall₂_survivors`: What arrives of texts in pairs is in pairs.
* `Recorder.counterparts_of_colored`: The two runs side by side.
-/

namespace Diagnostics

/-- Two shortest starts are as short as each other, and so they are one. -/
theorem IsShortest.unique {errors : Nat} {messages start start' : List Message}
    (h : IsShortest errors messages start) (h' : IsShortest errors messages start') :
    start = start' := by
  have hle := h.least start' h'.isPrefix h'.enough
  have hge := h'.least start h.isPrefix h.enough
  exact (List.prefix_of_prefix_length_le h.isPrefix h'.isPrefix hle).eq_of_length
    (Nat.le_antisymm hle hge)

namespace Outlet

/-- What arrives of texts that come in pairs comes in pairs. -/
theorem forall₂_survivors {R : String → String → Prop} (faults : Nat → Option String)
    {texts texts' : List String} (h : List.Forall₂ R texts texts') :
    List.Forall₂ R (survivors faults texts) (survivors faults texts') := by
  unfold survivors
  -- For any number of texts before: the schedule looks at that number alone.
  generalize 1 = place
  induction h generalizing place with
  | nil => exact .nil
  | @cons text text' texts texts' hpair _ ih =>
      rw [List.zipIdx_cons, List.zipIdx_cons, List.filterMap_cons, List.filterMap_cons]
      cases hfault : (faults place).isSome with
      | true =>
          simp only [hfault, if_true]
          exact ih (place + 1)
      | false =>
          simp only [hfault, Bool.false_eq_true, if_false]
          exact .cons hpair (ih (place + 1))

/-- The record of the calls of a run is that of texts that were offered. -/
theorem upheld_faithful :
    Recorder.Upheld fun (o : Outlet) (_ : List Entry) (_ : Outlet) (_ : List Entry) =>
      o.Faithful where
  print := fun htext h => h.emit htext
  note := fun _ h => h

end Outlet

namespace Recorder

/-- What arrives in a run is what the schedule lets pass of what is offered. -/
theorem chunks_finish (policy : Policy) (options : Options) (terminal : Terminal)
    (faults : Faults) (messages : List Message) :
    let finished := (recordAll { policy, options, terminal, outlet := { faults } } messages).finish
    finished.outlet.chunks = Outlet.survivors finished.outlet.faults.write
      finished.outlet.offered := by
  intro finished
  let r : Recorder := { policy, options, terminal, outlet := { faults } }
  have hself : r.Alike (fun o _ _ _ => o.Faithful) r :=
    { policy := rfl, options := rfl, terminal := rfl, kept := rfl, counts := rfl
      limitReached := rfl, related := Outlet.faithful_unused faults }
  exact ((hself.recordAll Outlet.upheld_faithful messages).finish
    Outlet.upheld_faithful).related.chunks

/-- What a run counts, which of its messages are offered to the outlet, and the
    words that it ends with, are the same on every terminal. -/
theorem exists_closing (policy : Policy) (options : Options) (messages : List Message) :
    ∃ start counted closing, start <+: messages ∧
      (∀ text ∈ closing, IsLimitNotice text ∨ IsSummary text) ∧
      ∀ (terminal : Terminal) (faults : Faults),
        let r : Recorder := { policy, options, terminal, outlet := { faults } }
        (∀ message ∈ messages, r.Renders message) →
          r.Advances (r.recordAll messages).finish messages counted
            (r.rendered start ++ closing) := by
  cases hprints : policy.prints with
  | false =>
      -- Nothing is printed, so nothing is counted or said at the end.
      refine ⟨[], [], [], List.nil_prefix, fun _ hmem => absurd hmem List.not_mem_nil, ?_⟩
      intro terminal faults r _
      rw [finish_recordAll_of_not_prints hprints rfl]
      exact { Advances.refl r with kept := rfl }
  | true =>
      have hopen (terminal : Terminal) (faults : Faults) :
          isSilent { policy, options, terminal, outlet := { faults } } = false :=
        isSilent_eq_false_iff.mpr ⟨rfl, hprints⟩
      -- Whether the limit is hit, and where, is told by the messages alone. So the
      -- runs on all terminals have the same start.
      by_cases hlimit : HitsLimit policy options (messages.countP Message.isError)
      · -- At the limit: what is counted ends with the error that reaches it, and a notice is the
        -- last word.
        rcases exists_split hlimit.2.1 hlimit.2.2 with ⟨front, last, rest, hsplit, hlast, hcount⟩
        have hshortest := isShortest_of_split front rest hlast
        rw [hcount, ← hsplit] at hshortest
        refine ⟨front ++ [last], front ++ [last],
          closingWords policy options messages (front ++ [last]), hshortest.isPrefix, ?_, ?_⟩
        · have hwords : ∃ notice,
              closingWords policy options messages (front ++ [last]) = [notice] ∧
                IsLimitNotice notice := closingWords_of_hitsLimit hlimit
          rcases hwords with ⟨notice, hnotice, hlimited⟩
          rw [hnotice]
          intro text hmem
          rw [List.mem_singleton.mp hmem]
          exact Or.inl hlimited
        · intro terminal faults r hrenders
          rcases finish_of_hitsLimit (hopen terminal faults) rfl hrenders hlimit with
            ⟨start, hstart, hrun, -⟩
          rwa [hstart.unique hshortest] at hrun
      · -- Below it: every message is counted, and what is said at the end is a summary if
        -- anything.
        refine ⟨messages, messages, closingWords policy options messages messages,
          List.prefix_refl _, fun _ hmem => Or.inr (isSummary_of_mem_closingWords hlimit hmem), ?_⟩
        intro terminal faults r hrenders
        exact (finish_of_below (hopen terminal faults) rfl hrenders hlimit).1

/-- Whether a message can be rendered has nothing to do with colour. -/
theorem isSome_render?_iff (message : Message) (options : Options) (terminal : Terminal)
    (colored : Bool) :
    (message.render? { terminal with colored } options).isSome = true ↔
      (message.render? terminal options).isSome = true := by
  rw [Message.render?, Message.render?, Option.isSome_map, Option.isSome_map]

/-- What is printed of clean messages comes in pairs. -/
theorem forall₂_rendered (policy : Policy) (options : Options) (terminal : Terminal)
    (outlet : Outlet) {messages : List Message}
    (hclean : ∀ message ∈ messages, message.IsClean) :
    List.Forall₂ Counterpart
      (rendered { policy, options, terminal := { terminal with colored := true }, outlet }
        messages)
      (rendered { policy, options, terminal := { terminal with colored := false }, outlet }
        messages) := by
  unfold rendered
  have hadmitted : ∀ message ∈ messages.filter fun message => options.level.admits message.kind,
      message.IsClean := fun message hmem => hclean message (List.mem_of_mem_filter hmem)
  dsimp only
  -- Both runs admit the same messages, so only the rendering is compared.
  generalize (messages.filter fun message => options.level.admits message.kind) = admitted
    at hadmitted ⊢
  induction admitted with
  | nil => exact .nil
  | cons m ms ih =>
      have hrest := ih fun message hmem => hadmitted message (List.mem_cons_of_mem m hmem)
      rw [List.filterMap_cons, List.filterMap_cons]
      cases hstyled : m.styled? options.snippet terminal.width with
      | none =>
          -- A message without a text leaves no trace in either run.
          simp only [Message.render?, hstyled, Option.map_none]
          exact hrest
      | some styled =>
          have hpair := Message.counterpart_of_styled? (hadmitted m List.mem_cons_self) hstyled
          simp only [Message.render?, hstyled, Option.map_some]
          exact .cons hpair hrest

/-- A run of clean messages on a terminal with colour, beside the same run
    without. The same messages are kept, and the counts are the same. Whatever
    faults the outlet suffers, as many texts arrive in one as in the other, and
    each text of the coloured run is the counterpart of the text in its place:
    the same but for its escapes, and the very same if it is a notice or a
    summary. -/
theorem counterparts_of_colored (policy : Policy) (options : Options) (terminal : Terminal)
    (faults : Faults) {messages : List Message}
    (hrender : ∀ message ∈ messages, (message.render? terminal options).isSome = true)
    (hclean : ∀ message ∈ messages, message.IsClean) :
    let run (colored : Bool) : Recorder :=
      (recordAll
        { policy, options, terminal := { terminal with colored }, outlet := { faults } }
        messages).finish
    List.Forall₂ Counterpart (run true).outlet.chunks (run false).outlet.chunks ∧
      (run true).counts = (run false).counts ∧ (run true).kept = (run false).kept := by
  intro run
  rcases exists_closing policy options messages with
    ⟨start, counted, closing, hstart, hclosing, hrun⟩
  -- Colour has no say in what can be rendered, so both runs are of that form.
  have hadvances (colored : Bool) := hrun { terminal with colored } faults
    fun message hmem _ => (isSome_render?_iff message options terminal colored).mpr
      (hrender message hmem)
  have hcolored := hadvances true
  have hplain := hadvances false
  refine ⟨?_, hcolored.counts.trans hplain.counts.symm, hcolored.kept.trans hplain.kept.symm⟩
  -- What was offered is in pairs: the messages, and then the closing words.
  have hpairs : List.Forall₂ Counterpart (run true).outlet.offered (run false).outlet.offered := by
    have hprinted := forall₂_rendered policy options terminal { faults }
      fun message hmem => hclean message (hstart.subset hmem)
    have hwords : List.Forall₂ Counterpart closing closing :=
      List.forall₂_same.mpr fun text hmem => counterpart_self (hclosing text hmem)
    rw [hcolored.offered, hplain.offered]
    exact List.rel_append hprinted hwords
  -- Both outlets follow one schedule, which drops the texts in the same places.
  have hchunks (colored : Bool) : (run colored).outlet.chunks =
      Outlet.survivors faults.write (run colored).outlet.offered := by
    rw [chunks_finish, (hadvances colored).faults]
  rw [hchunks, hchunks]
  exact Outlet.forall₂_survivors faults.write hpairs

/-- A warning about a place and an error about none. -/
def placedAndUnplaced : List Message :=
  [{ source := some { index := 0, absolutePath := "/a", displayPath := "a", contents := "\tx" }
     span := ⟨1, 1⟩, text := "w", kind := .warning },
   .unplaced .error "e"]

/-- A run that ends at the limit: two texts with escapes, and a notice that has
    none. -/
theorem counterparts_of_colored_at_limit :
    let options : Options := { snippet := true, errorLimit := 1 }
    let run (colored : Bool) : Recorder :=
      (recordAll
        { policy := .interactive, options, terminal := { Terminal.plain with colored } }
        placedAndUnplaced).finish
    (∀ message ∈ placedAndUnplaced, (message.render? .plain options).isSome = true) ∧
      (∀ message ∈ placedAndUnplaced, message.IsClean) ∧
      List.Forall₂ Counterpart (run true).outlet.chunks (run false).outlet.chunks ∧
      (run true).outlet.chunks =
        ["\x1b[1ma:1:1: \x1b[35mwarning: \x1b[0;1mw\n" ++
            "\x1b[0m  \x1b[32mx\x1b[0m\n\x1b[32m  ^\x1b[0m\n",
          "\x1b[1m\x1b[31merror: \x1b[0;1me\x1b[0m\n",
          "1 warning and 1 error reached (disable error limit with --error-limit=0)\n"] := by
  intro options run
  have hrender : ∀ message ∈ placedAndUnplaced,
      (message.render? .plain options).isSome = true := by decide
  have hclean : ∀ message ∈ placedAndUnplaced, message.IsClean := by
    intro message hmem
    -- Only the first has a source whose path and contents have to be looked through.
    rcases List.mem_pair.mp hmem with rfl | rfl
    · refine ⟨by decide, ?_, ?_⟩
      · rintro source ⟨⟩
        decide
      · rintro source ⟨⟩
        decide
    · exact ⟨by decide, fun _ hnone => (nomatch hnone), fun _ hnone => (nomatch hnone)⟩
  have hpairs := (counterparts_of_colored .interactive options .plain .never hrender hclean).1
  exact ⟨hrender, hclean, hpairs, by decide⟩

end Recorder

end Diagnostics
