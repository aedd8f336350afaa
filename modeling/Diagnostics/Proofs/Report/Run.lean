import Diagnostics.Proofs.Excerpt.Block
import Diagnostics.Proofs.Report.Checks
import Diagnostics.Proofs.Session.Play
import Diagnostics.Proofs.Session.Staging
import Diagnostics.Proofs.Sink.Commands

/-!
# The Report from Start to End

The whole program put together. Its two checks always have an answer, and all of
their messages are about places in the text, so that nothing brings down a sink.
The warnings pass the deferred sink as they are. Then two producers report to a
sink for people, and what that comes to is what one recorder makes of all the
messages, in an order that keeps the errors in order and the warnings in order.
Every such order can come about, and nothing else can.

The exit code goes by what was kept and not by what was printed. So an error
counts although the limit silenced it, and a warning does not count.

## Main definitions

* `Report.IsFlag`: An argument that names no file.
* `Report.recorder`: What the report is printed through.
* `Report.Reports`: An outcome, for messages that came in some order.

## Theorems

* `Message.isSome_render?_of_fitsIn`: What is about a place can be rendered.
* `Report.staged?_eq`: Staging changes nothing.
* `Report.exists_reports`: What an order of the messages leads to.
* `Report.outcomes_of_run`: What the program does.
-/

namespace Diagnostics

open Text

/-- A message about a place in its source can be rendered anywhere. -/
theorem Message.isSome_render?_of_fitsIn {message : Message} {source : Source}
    (hsource : message.source = some source) (hfits : message.span.FitsIn source.chars)
    (terminal : Terminal) (options : Options) :
    (message.render? terminal options).isSome = true := by
  refine (isSome_render?_iff_fitsIn message terminal options).mpr fun source' hsource' _ => ?_
  rw [hsource, Option.some.injEq] at hsource'
  rwa [← hsource']

namespace Report

/-- An argument that starts with two dashes names no file. -/
def IsFlag (arg : String) : Prop :=
  "--".toList <+: arg.toList

/-- Whether an argument is a flag can be decided. -/
instance (arg : String) : Decidable (IsFlag arg) :=
  inferInstanceAs (Decidable (_ <+: _))

theorem isFlag_iff {arg : String} :
    IsFlag arg ↔ "--".toList.isPrefixOf arg.toList = true :=
  List.isPrefixOf_iff_prefix.symm

theorem inputPath?_of_flags {args : List String} (h : ∀ arg ∈ args, IsFlag arg) :
    inputPath? args = none := by
  rw [inputPath?, List.find?_eq_none]
  intro arg hmem
  rw [isFlag_iff.mp (h arg hmem)]
  exact Bool.false_ne_true

theorem inputPath?_append_cons {flags : List String} {path : String}
    (hflags : ∀ arg ∈ flags, IsFlag arg) (hpath : ¬ IsFlag path) (rest : List String) :
    inputPath? (flags ++ path :: rest) = some path := by
  rw [isFlag_iff, Bool.not_eq_true] at hpath
  rw [inputPath?, List.find?_append, ← inputPath?, inputPath?_of_flags hflags, Option.none_or,
    List.find?_cons_of_pos (by rw [hpath, Bool.not_false])]

/-- What the report is printed through: a recorder for people, with snippets, at
    most ten errors, and the settings of the arguments, except that a level that
    asks for nothing asks for a summary here. -/
def recorder (args : List String) : Recorder :=
  let asked := Options.ofArgs args
  { policy := .interactive
    options :=
      { snippet := true
        errorLimit := 10
        color := asked.color
        level := if asked.level = .none then .info else asked.level }
    terminal := Terminal.plain.withColorMode asked.color }

theorem interactive_eq (args : List String) :
    Sink.interactive (options args) .plain .reliable =
      .running ((recorder args).note (.started .interactive)) := rfl

theorem staged?_eq (messages : List Message) : staged? messages = some messages := by
  rw [staged?, Sink.replay_deferred]
  -- A silent recorder hands back what it was given.
  show some (Recorder.keeping messages).finish.kept = some messages
  rw [Recorder.finish_of_uncounted rfl]
  rfl

/-- The outcome that the program makes of what it has collected. -/
def outcomeOf (r : Recorder) : Outcome :=
  { exitCode := if anyError r.kept then 1 else 0, stderr := String.join r.outlet.chunks }

theorem describe_eq (args : List String) (source : Source) (order : List Nat) :
    describe args source order =
      ((Session.start [tabErrors source, reminders source]
        (Sink.interactive (options args) .plain .reliable)).playOut order).collected.map
          outcomeOf := by
  rw [describe, reminders?_eq]
  simp only [Option.bind_eq_bind, Option.bind_some, staged?_eq]
  exact Option.map_eq_bind.symm

/-- An outcome, for messages that came in some order. What is written is what one
    recorder writes for them, and the report fails if some line starts with a
    tab, and succeeds if there is none. -/
structure Reports (args : List String) (source : Source) (messages : List Message)
    (outcome : Outcome) : Prop where
  stderr : outcome.stderr =
    String.join ((recorder args).recordAll messages).finish.outlet.chunks
  stdout : outcome.stdout = ""
  fails : (∃ offset, StartsWithTabAt source.chars offset) → outcome.exitCode = 1
  succeeds : (¬ ∃ offset, StartsWithTabAt source.chars offset) → outcome.exitCode = 0

/-- There is only one such outcome. -/
theorem Reports.eq {args : List String} {source : Source} {messages : List Message}
    {outcome outcome' : Outcome} (h : Reports args source messages outcome)
    (h' : Reports args source messages outcome') : outcome = outcome' := by
  have hexit : outcome.exitCode = outcome'.exitCode := by
    by_cases htab : ∃ offset, StartsWithTabAt source.chars offset
    · exact (h.fails htab).trans (h'.fails htab).symm
    · exact (h.succeeds htab).trans (h'.succeeds htab).symm
  rcases outcome with ⟨exitCode, stderr, stdout⟩
  rcases outcome' with ⟨exitCode', stderr', stdout'⟩
  rw [Outcome.mk.injEq]
  exact ⟨hexit, h.stderr.trans h'.stderr.symm, h.stdout.trans h'.stdout.symm⟩

section Messages

variable {args : List String} {source : Source} {merged : List Message}

theorem mem_of_interleaves (h : Interleaves [tabErrors source, reminders source] merged)
    {message : Message} (hmem : message ∈ merged) :
    message ∈ tabErrors source ∨ message ∈ reminders source := by
  have hall := h.perm_flatten.subset hmem
  rwa [List.flatten_cons, List.flatten_singleton, List.mem_append] at hall

/-- Every message of the report can be rendered. -/
theorem renders_of_interleaves (h : Interleaves [tabErrors source, reminders source] merged)
    (r : Recorder) : ∀ message ∈ merged, r.Renders message := by
  intro message hmem _
  -- The spans of both checks come from scans of the text.
  rcases mem_of_interleaves h hmem with herror | hwarning
  · rcases (isTabErrors_tabErrors source).fitsIn_of_mem herror with ⟨-, hsource, hfits⟩
    exact Message.isSome_render?_of_fitsIn hsource hfits _ _
  · rcases fitsIn_of_mem_reminders hwarning with ⟨-, hsource, hfits⟩
    exact Message.isSome_render?_of_fitsIn hsource hfits _ _

/-- There is an error among the messages exactly if some line starts with a
    tab. -/
theorem anyError_iff (h : Interleaves [tabErrors source, reminders source] merged) :
    anyError merged = true ↔ ∃ offset, StartsWithTabAt source.chars offset := by
  rw [← (isTabErrors_tabErrors source).ne_nil_iff, anyError, List.any_eq_true]
  constructor
  · rintro ⟨message, hmem, herror⟩
    -- The warnings of the other check are no errors.
    rcases mem_of_interleaves h hmem with hfirst | hwarning
    · exact List.ne_nil_of_mem hfirst
    · rw [Message.isError, (fitsIn_of_mem_reminders hwarning).1] at herror
      exact absurd herror Bool.noConfusion
  · intro hne
    -- Any order of the messages has the first of the errors in it.
    rcases List.exists_mem_of_ne_nil _ hne with ⟨message, hfirst⟩
    refine ⟨message, h.perm_flatten.symm.subset ?_, ?_⟩
    · exact List.mem_flatten_of_mem List.mem_cons_self hfirst
    · rw [Message.isError, ((isTabErrors_tabErrors source).fitsIn_of_mem hfirst).1]
      rfl

/-- What an order of the messages leads to. -/
theorem exists_reports (args : List String)
    (h : Interleaves [tabErrors source, reminders source] merged) :
    ∃ r, ((Sink.interactive (options args) .plain .reliable).replay merged).1.finalize = some r ∧
      Reports args source merged (outcomeOf r) := by
  let started := (recorder args).note (.started .interactive)
  rcases Sink.replay_of_renders (r := started) fun _ => renders_of_interleaves h started with
    ⟨hreplay, -, counted, texts, hadvances⟩
  rw [interactive_eq, hreplay]
  refine ⟨(started.recordAll merged).finish, rfl, ?_⟩
  have hkept : (started.recordAll merged).finish.kept = merged := by
    have hall := (hadvances.trans (Recorder.advances_finish _)).kept
    rwa [List.append_nil] at hall
  -- What was noted at the start makes no difference to what is written.
  have halike := ((Recorder.alike_note (recorder args) (.started .interactive)).recordAll
    Recorder.upheld_sameOutlet merged).finish Recorder.upheld_sameOutlet
  have hout : ((recorder args).recordAll merged).finish.outlet =
      (started.recordAll merged).finish.outlet := halike.related
  have hfails : anyError (started.recordAll merged).finish.kept = true ↔
      ∃ offset, StartsWithTabAt source.chars offset := by
    rw [hkept]
    exact anyError_iff h
  exact {
    stderr := by rw [hout]; rfl
    stdout := rfl
    fails := fun htab => if_pos (hfails.mpr htab)
    succeeds := fun hnone => if_neg fun herror => hnone (hfails.mp herror) }

end Messages

/-- The outcomes of a report on a file, over all turns of its two producers, are
    those that the orders of the messages lead to. -/
theorem exists_describe_iff {args : List String} {source : Source} {outcome : Outcome} :
    (∃ order, describe args source order = some outcome) ↔
      ∃ merged, Interleaves [tabErrors source, reminders source] merged ∧
        Reports args source merged outcome := by
  constructor
  · rintro ⟨order, hdescribe⟩
    rw [describe_eq] at hdescribe
    -- Turns come to what some order of the messages comes to.
    rcases Session.exists_playOut_iff.mp ⟨order, rfl⟩ with ⟨merged, hmerged, hcollected⟩
    rcases exists_reports args hmerged with ⟨r, hfinalize, hreports⟩
    rw [hcollected, hfinalize, Option.map_some, Option.some.injEq] at hdescribe
    exact ⟨merged, hmerged, hdescribe ▸ hreports⟩
  · rintro ⟨merged, hmerged, hreports⟩
    -- And each order is that of some turns, which have no other outcome.
    rcases exists_reports args hmerged with ⟨r, hfinalize, hreports'⟩
    rcases Session.exists_playOut_iff.mpr ⟨merged, hmerged, rfl⟩ with ⟨order, hcollected⟩
    refine ⟨order, ?_⟩
    rw [describe_eq, hcollected, hfinalize, Option.map_some, hreports'.eq hreports]

/-- There is an outcome for all turns. -/
theorem exists_describe (args : List String) (source : Source) (order : List Nat) :
    ∃ outcome, describe args source order = some outcome := by
  rcases Session.exists_playOut_iff.mp ⟨order, rfl⟩ with ⟨merged, hmerged, hcollected⟩
  rcases exists_reports args hmerged with ⟨r, hfinalize, -⟩
  rw [hfinalize] at hcollected
  exact ⟨outcomeOf r, by rw [describe_eq, hcollected, Option.map_some]⟩

/-- However the two producers take their steps, the outcome is one of those. -/
theorem exists_describe_of_endsAt {args : List String} {source : Source} {t : Rendezvous}
    {collected : Option Recorder}
    (h : Rendezvous.EndsAt [tabErrors source, reminders source]
      (Sink.interactive (options args) .plain .reliable) t collected) :
    ∃ r order, collected = some r ∧ describe args source order = some (outcomeOf r) := by
  rcases h.exists_replay with ⟨merged, hmerged, hcollected, -⟩
  rcases exists_reports args hmerged with ⟨r, hfinalize, hreports⟩
  rcases exists_describe_iff.mpr ⟨merged, hmerged, hreports⟩ with ⟨order, hdescribe⟩
  exact ⟨r, order, hcollected.trans hfinalize, hdescribe⟩

/-- What the program does, for all arguments, files and turns of its producers.

    Without a path among the arguments, or if the file cannot be read, it fails
    with an early error. The path is the first argument that is no flag.

    Otherwise there is an outcome for all turns. The outcomes that there are, are
    those of one recorder that gets the errors about indentation and the warnings
    about literals in an order that keeps both in theirs. And however the two
    producers take their steps, what they come to is one of these. -/
theorem outcomes_of_run (args : List String) (read : String → Except ReadError InputFile) :
    ((∀ arg ∈ args, IsFlag arg) → ∀ order, run args read order =
      some { exitCode := 1, stderr := earlyError args "no input file", stdout := "" }) ∧
    ∀ flags path rest, args = flags ++ path :: rest → (∀ arg ∈ flags, IsFlag arg) →
      ¬ IsFlag path →
        (∀ reason, read path = .error reason → ∀ order, run args read order =
          some
            { exitCode := 1
              stderr := earlyError args ("could not read " ++ path ++ ": " ++ reason.message)
              stdout := "" }) ∧
        ∀ file, read path = .ok file →
          let source : Source :=
            { index := 0, absolutePath := file.absolutePath, displayPath := path
              contents := file.contents }
          let messages := [tabErrors source, reminders source]
          IsTabErrors source (tabErrors source) ∧ IsReminders source (reminders source) ∧
          (∀ order, ∃ outcome, run args read order = some outcome) ∧
          (∀ outcome, (∃ order, run args read order = some outcome) ↔
            ∃ merged, Interleaves messages merged ∧ Reports args source merged outcome) ∧
          ∀ t collected, Rendezvous.EndsAt messages
              (Sink.interactive (options args) .plain .reliable) t collected →
            ∃ r order, collected = some r ∧ run args read order = some (outcomeOf r) := by
  refine ⟨fun hflags order => ?_, ?_⟩
  · -- Nothing but flags.
    rw [run, inputPath?_of_flags hflags]
    rfl
  · rintro flags path rest rfl hflags hpath
    have hinput := inputPath?_append_cons hflags hpath rest
    refine ⟨fun reason hread order => ?_, fun file hread => ?_⟩
    · -- A file that cannot be read.
      rw [run, hinput]
      simp only [hread]
      rfl
    · -- A file that can: the program is the report on it.
      intro source messages
      have hrun (order : List Nat) : run (flags ++ path :: rest) read order =
          describe (flags ++ path :: rest) source order := by
        rw [run, hinput]
        simp only [hread]
        rfl
      simp only [hrun]
      exact ⟨isTabErrors_tabErrors source, isReminders_reminders source, exists_describe _ source,
        fun _ => exists_describe_iff, fun _ _ => exists_describe_of_endsAt⟩

/-- One line that starts with a tab and holds a reminder. If the warning comes
    first, it is written first, and the report fails because of the error. -/
theorem outcomes_of_run_one_line :
    let args := ["--color=false", "f"]
    let read : String → Except ReadError InputFile :=
      fun _ => .ok { absolutePath := "/f", contents := "\t\"TODO\"\n" }
    (∀ arg ∈ ["--color=false"], IsFlag arg) ∧ ¬ IsFlag "f" ∧
      ∃ order, run args read order = some
        { exitCode := 1
          stderr := "f:1:1: warning: string mentions TODO\n  \"TODO\"\n  ~~~~~~\n" ++
            "f:1:0: error: line is indented with a tab\n  \"TODO\"\n^\n" ++
            "1 warning and 1 error\n"
          stdout := "" } := by
  intro args read
  have hflags : ∀ arg ∈ ["--color=false"], IsFlag arg := by decide
  have hpath : ¬ IsFlag "f" := by decide
  refine ⟨hflags, hpath, ?_⟩
  rcases ((outcomes_of_run args read).2 ["--color=false"] "f" [] rfl hflags hpath).2 _ rfl with
    ⟨-, -, -, houtcomes, -⟩
  -- The file has one error and one warning, and the warning is to come first.
  let source : Source :=
    { index := 0, absolutePath := "/f", displayPath := "f", contents := "\t\"TODO\"\n" }
  let error : Message :=
    { source := some source, span := ⟨0, 0⟩, text := "line is indented with a tab", kind := .error }
  let warning : Message :=
    { source := some source, span := ⟨1, 6⟩, text := "string mentions TODO", kind := .warning }
  have herrors : tabErrors source = [error] := by decide
  have hwarnings : reminders source = [warning] := by decide
  -- First the second list gives its message, and then the first one.
  have hlast : Interleaves ([] ++ (error :: []) :: [[]]) (error :: []) := .take (.done (by decide))
  have hmerged : Interleaves ([[error]] ++ (warning :: []) :: []) (warning :: [error]) :=
    .take hlast
  refine (houtcomes _).mpr ⟨[warning, error], ?_, ?_⟩
  · rw [herrors, hwarnings]
    exact hmerged
  · -- What is written is that of one recorder, which can be computed.
    exact {
      stderr := by decide
      stdout := rfl
      fails := fun _ => rfl
      succeeds := fun hnone => absurd ⟨0, [], "\"TODO\"\n".toList, rfl, rfl, Or.inl rfl⟩ hnone }

end Report

end Diagnostics
