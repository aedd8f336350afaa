import Diagnostics.EarlyError
import Diagnostics.Proofs.Options.Arguments
import Diagnostics.Proofs.Session.Sequential
import Diagnostics.Proofs.Sink.Limit

/-!
# Early Errors Are Always Written

An early error goes through a sink whose settings anybody can choose by what is
on the command line. None of them can keep it back. Every level admits errors;
there is no word that sets an error limit, so there is nothing to reach; and
without a source there is no place to look for and nothing that cannot be
rendered.

The arguments decide two things only, and for each of them it is the last of its
words that does. Colour is written if that is the word for it, since the stream
itself is taken to be plain. A summary follows if the level is left as it is or
set to the one that asks for it.

## Main definitions

* `errorLine`: How an error that concerns the whole job is written.
* `earlyRecorder`: The recorder that writes it.

## Theorems

* `render?_unplaced_error`: That is how it is rendered, with any settings.
* `Options.enables_ofArgs_iff`: Which arguments ask for colour.
* `Options.level_ofArgs_le_info_iff`: Which arguments leave the summary on.
* `Recorder.closingWords_of_one_error`: What one error ends with.
* `report_earlySink`, `finish_earlyRecorder`: The sink takes the error and writes
  it.
* `earlyError_unsuppressed`: What is written, for all arguments.
-/

namespace Diagnostics

/-- An error that concerns the whole job as a line, with colour or without. -/
def errorLine (colored : Bool) (text : String) : String :=
  if colored then "\x1b[1m\x1b[31merror: \x1b[0;1m" ++ text ++ "\x1b[0m\n"
  else "error: " ++ text ++ "\n"

/-- Without a source there is a text whatever the settings are, and of these only
    the colour matters. -/
theorem render?_unplaced_error (text : String) (terminal : Terminal) (options : Options) :
    (Message.unplaced .error text).render? terminal options =
      some (errorLine terminal.colored text) := by
  unfold Message.render? Message.styled? Message.unplaced errorLine
  simp only [Option.map_some, Option.some.injEq]
  apply String.toList_inj.mp
  simp only [Styled.write, Styled.chars, Message.headline, Message.label, Kind.style, Kind.label,
    List.cons_append, List.nil_append, List.flatMap_cons, List.flatMap_nil, Piece.chars,
    String.toList_ofList]
  cases terminal.colored with
  | false =>
      -- The styles leave nothing, and what is left are the three parts of the line.
      simp only [Bool.false_eq_true, if_false, String.toList_append, List.append_assoc]
      rfl
  | true =>
      simp only [if_true, String.toList_append, List.append_assoc]
      rfl

namespace Options

/-- On a plain stream colour is written if the last word for it says so. -/
theorem enables_ofArgs_iff (args : List String) :
    (ofArgs args).color.enables false = true ↔
      lastOf? colorFlags args = some "--color=true" := by
  rw [color_ofArgs]
  by_cases htrue : lastOf? colorFlags args = some "--color=true"
  · rw [if_pos htrue]
    exact iff_of_true rfl htrue
  · -- Colour is refused, or left to a stream that has none.
    rw [if_neg htrue]
    by_cases hfalse : lastOf? colorFlags args = some "--color=false"
    · rw [if_pos hfalse]
      exact iff_of_false Bool.noConfusion htrue
    · rw [if_neg hfalse]
      exact iff_of_false Bool.noConfusion htrue

/-- A summary is asked for if the level is not set, or set to ask for one. -/
theorem level_ofArgs_le_info_iff (args : List String) :
    (ofArgs args).level ≤ .info ↔
      lastOf? levelFlags args = none ∨ lastOf? levelFlags args = some "--log-level=info" := by
  rw [isSetBy_level.ofArgs]
  cases hlast : lastOf? levelFlags args with
  | none => exact iff_of_true (Level.le_iff_rank_le.mpr (Nat.zero_le _)) (Or.inl rfl)
  | some word =>
      -- A word that sets the level is one of three.
      have hword := mem_of_lastOf? hlast
      simp only [levelFlags, List.mem_cons, List.not_mem_nil, or_false] at hword
      rcases hword with rfl | rfl | rfl <;> decide

end Options

namespace Recorder

/-- No recorder is brought down by an error that concerns the whole job. -/
theorem renders_unplaced_error (r : Recorder) (text : String) :
    ∀ message ∈ [Message.unplaced .error text], r.Renders message := by
  intro message hmem _
  rw [List.mem_singleton.mp hmem, render?_unplaced_error]
  rfl

/-- What one error alone ends with, if there is no limit to reach. -/
theorem closingWords_of_one_error {options : Options} (hlimit : options.errorLimit = 0)
    (text : String) :
    closingWords .interactive options [.unplaced .error text] [.unplaced .error text] =
      if options.level ≤ .info then ["1 error\n"] else [] := by
  have hcounts : Counts.ofMessages [.unplaced .error text] = { errors := 1, warnings := 0 } := rfl
  have hwords : Counts.text { errors := 1, warnings := 0 } ++ "\n" = "1 error\n" := by decide
  -- Without a limit the closing words are a summary or nothing.
  rw [closingWords, if_neg (not_hitsLimit_of_below (Or.inl hlimit)), hcounts, hwords]
  by_cases hlevel : options.level ≤ .info
  · rw [if_pos hlevel, if_pos ⟨rfl, hlevel, List.cons_ne_nil _ _⟩]
  · rw [if_neg hlevel, if_neg fun h => hlevel h.2.1]

end Recorder

/-- The recorder of an early error before it gets one. -/
def earlyRecorder (args : List String) : Recorder :=
  .fresh (.ofArgs args) (Terminal.plain.withColorMode (Options.ofArgs args).color)
    [.started .interactive]

theorem Sink.replay_singleton (sink : Sink) (message : Message) :
    sink.replay [message] = sink.report message := by
  rw [replay, replay, List.append_nil]

/-- The sink takes the error and goes on, and nothing is noted. -/
theorem report_earlySink (args : List String) (text : String) :
    (earlySink args).report (.unplaced .error text) =
      (.running ((earlyRecorder args).recordAll [.unplaced .error text]), []) := by
  have hsink : earlySink args = .running (earlyRecorder args) := rfl
  rw [hsink, ← Sink.replay_singleton]
  exact (Sink.replay_of_renders fun _ => (earlyRecorder args).renders_unplaced_error text).1

/-- What that run ends with: the line of the error, then a summary if the level
    asks for it. -/
theorem finish_earlyRecorder (args : List String) (text : String) :
    let finished := ((earlyRecorder args).recordAll [.unplaced .error text]).finish
    finished.outlet.chunks =
        errorLine ((Options.ofArgs args).color.enables false) text ::
          (if (Options.ofArgs args).level ≤ .info then ["1 error\n"] else []) ∧
      (∀ chunk ∈ finished.outlet.chunks, ¬ IsLimitNotice chunk) ∧
      finished.limitReached = false := by
  intro finished
  have hlimit : (Options.ofArgs args).errorLimit = 0 := by rw [Options.ofArgs_eq]
  have hrenders := (earlyRecorder args).renders_unplaced_error text
  have hquiet := Recorder.not_isLimitNotice_of_below hrenders (Or.inl hlimit)
  rcases Recorder.finish_fresh_of_below (List.Perm.refl _) hrenders (Or.inl hlimit) with
    ⟨hchunks, -⟩
  -- Every level admits an error, so its line is among what is written.
  have hline : (earlyRecorder args).rendered [.unplaced .error text] =
      [errorLine ((Options.ofArgs args).color.enables false) text] :=
    Recorder.rendered_singleton_of_admits (Level.admits_error _) (render?_unplaced_error text _ _)
  rw [Recorder.closingWords_of_one_error hlimit] at hchunks
  refine ⟨?_, hquiet.2, hquiet.1⟩
  rw [← List.singleton_append, ← hline]
  exact hchunks

/-- What an early error comes to, whatever the arguments.

    The sink takes it, and finalizing returns a recorder, the same one however
    the sender and the worker take their steps. What has arrived on the stream is
    the line of the error, in colour if that is what the last word for the colour
    says; then a summary, if the last word for the level asks for one or there is
    no such word; and nothing else. In particular there is no notice, and the
    limit is not reached. -/
theorem earlyError_unsuppressed (args : List String) (text : String) :
    ∃ r, ((earlySink args).report (.unplaced .error text)).1.finalize = some r ∧
      ((earlySink args).report (.unplaced .error text)).2 = [] ∧
      (∀ t collected, Rendezvous.EndsAt [[.unplaced .error text]] (earlySink args) t collected →
        collected = some r ∧ t.noted = []) ∧
      earlyError args text = String.join r.outlet.chunks ∧
      r.outlet.chunks =
        errorLine (lastOf? colorFlags args = some "--color=true") text ::
          (if lastOf? levelFlags args = none ∨ lastOf? levelFlags args = some "--log-level=info"
            then ["1 error\n"] else []) ∧
      (∀ chunk ∈ r.outlet.chunks, ¬ IsLimitNotice chunk) ∧ r.limitReached = false := by
  have hreport := report_earlySink args text
  have hfinalize : ((earlySink args).report (.unplaced .error text)).1.finalize =
      some ((earlyRecorder args).recordAll [.unplaced .error text]).finish := by
    rw [hreport]
    rfl
  rcases finish_earlyRecorder args text with ⟨hchunks, hnotices, hreached⟩
  refine ⟨_, hfinalize, ?_, fun t collected hend => ?_, ?_, ?_, hnotices, hreached⟩
  · rw [hreport]
  · -- One sender leaves no choice in the order of the messages.
    rcases hend.eq_replay with ⟨hcollected, -, hnoted⟩
    rw [Sink.replay_singleton] at hcollected hnoted
    exact ⟨hcollected.trans hfinalize, hnoted.trans (congrArg Prod.snd hreport)⟩
  · simp only [earlyError, hfinalize]
  · -- The settings of the line and of the summary are those of the last words.
    have hcolored : (Options.ofArgs args).color.enables false =
        decide (lastOf? colorFlags args = some "--color=true") := by
      rw [Bool.eq_iff_iff, decide_eq_true_iff]
      exact Options.enables_ofArgs_iff args
    simp only [hcolored, Options.level_ofArgs_le_info_iff] at hchunks
    exact hchunks

/-- The last words decide, for colour and against a summary, although there are
    others before them and arguments that resemble them behind. -/
theorem earlyError_unsuppressed_overridden :
    let args := ["--color=false", "--log-level=info", "entry.js", "--log-level=error",
      "--color=true", "--color=never", "--log-level"]
    ∃ t r, Rendezvous.EndsAt [[.unplaced .error "no input file"]] (earlySink args) t (some r) ∧
      r.outlet.chunks = ["\x1b[1m\x1b[31merror: \x1b[0;1mno input file\x1b[0m\n"] := by
  intro args
  rcases earlyError_unsuppressed args "no input file" with ⟨r, -, -, hends, -, hchunks, -⟩
  rcases Rendezvous.exists_endsAt [[.unplaced .error "no input file"]] (earlySink args) with
    ⟨t, collected, hend⟩
  rw [(hends t collected hend).1] at hend
  exact ⟨t, r, hend, hchunks.trans (by decide)⟩

end Diagnostics
