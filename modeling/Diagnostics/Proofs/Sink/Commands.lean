import Diagnostics.Proofs.Sink.Alike
import Diagnostics.Sink

/-!
# A Worker and its Commands

A worker takes commands one at a time, and what it makes of them is what a
recorder makes of their messages, taken one after the other. This holds up to
the first command that ends the work, and nothing after that one counts.

There are two such commands. Being told to stop is one. The other is a message
that cannot be rendered, and whether a message is one of those depends on the
state that the messages before it have led to: a silent recorder renders
nothing, and so it cannot fail. `endsAt` therefore asks the recorder that has
recorded everything before.

That senders go away ends the work as well, and leaves the same recorder behind
as being told to stop, up to what was noted.

## Main definitions

* `Recorder.unlogged`: A recorder apart from what it has noted.
* `Command.ends`: Whether a command ends the work of a recorder.
* `Sink.endPosition`: The first command that ends the work.
* `Sink.Settled`: What has become of commands that were sent.

## Theorems

* `Sink.sendAll_of_not_running`: Nothing reaches a worker that has ended.
* `Sink.sendAll_start`: What becomes of commands, of the worker and of its
  recorder.
-/

namespace Diagnostics

namespace Recorder

/-- A recorder apart from what it has noted. -/
def unlogged (r : Recorder) : Recorder :=
  { r with journal := [] }

/-- Two recorders over the same outlet, whatever they have noted. -/
def SameOutlet (o : Outlet) (_ : List Entry) (o' : Outlet) (_ : List Entry) : Prop :=
  o = o'

theorem upheld_sameOutlet : Upheld SameOutlet where
  print := fun {_ _ _ _ text} _ h => congrArg (fun outlet : Outlet => (outlet.emit text).1) h
  note := fun _ h => h

/-- To note something makes no other difference. -/
theorem alike_note (r : Recorder) (entry : Entry) : r.Alike SameOutlet (r.note entry) where
  policy := rfl
  options := rfl
  terminal := rfl
  kept := rfl
  counts := rfl
  limitReached := rfl
  related := rfl

theorem Alike.unlogged_eq {r q : Recorder} (h : r.Alike SameOutlet q) :
    q.unlogged = r.unlogged := by
  rw [unlogged, unlogged, h.policy, h.options, h.terminal, h.kept, h.counts, h.limitReached,
    ← show r.outlet = q.outlet from h.related]

/-- A message that cannot be rendered writes nothing. -/
theorem outlet_of_unrenderable {r r' : Recorder} {message : Message}
    (h : r.record message = .unrenderable r') : r'.outlet = r.outlet := by
  rcases r.record_cases message with ⟨q, -, -, hkept, -⟩ | ⟨q, -, hopen, hrenders, -⟩
  · exact absurd (h.symm.trans hkept) Recorded.noConfusion
  · rw [record_of_not_renders hopen hrenders, Recorded.unrenderable.injEq] at h
    rw [← h]

end Recorder

namespace Command

/-- The message that a command hands over, if it hands over one. -/
def message? : Command → Option Message
  | .emit message => some message
  | .shutdown => none

/-- The messages that commands hand over. -/
def messages (commands : List Command) : List Message :=
  commands.filterMap message?

theorem messages_cons_emit (message : Message) (commands : List Command) :
    messages (.emit message :: commands) = message :: messages commands := rfl

/-- Whether a command ends the work of a recorder: it says so, or it brings a
    message that cannot be rendered. -/
def ends (r : Recorder) : Command → Bool
  | .shutdown => true
  | .emit message =>
    match r.record message with
    | .kept _ => false
    | .unrenderable _ => true

end Command

namespace Sink

/-- Whether the command at a place ends the work, in the state that the messages
    before it have led to. -/
def endsAt (r : Recorder) (commands : List Command) (place : Nat) : Bool :=
  match commands[place]? with
  | some command => command.ends (r.recordAll (Command.messages (commands.take place)))
  | none => false

/-- The first place at which a command ends the work, or the number of commands
    if there is none. -/
def endPosition (r : Recorder) (commands : List Command) : Nat :=
  (List.range commands.length).findIdx (endsAt r commands)

theorem endPosition_cons (r : Recorder) (command : Command) (commands : List Command) :
    endPosition r (command :: commands) =
      if command.ends r = true then 0
      else (List.range commands.length).findIdx
        (fun place => endsAt r (command :: commands) (place + 1)) + 1 := by
  rw [endPosition, List.length_cons, List.range_succ_eq_map, List.findIdx_cons,
    List.findIdx_map, Bool.cond_eq_ite]
  rfl

theorem endPosition_cons_of_ends {r : Recorder} {command : Command} (h : command.ends r = true)
    (commands : List Command) : endPosition r (command :: commands) = 0 := by
  rw [endPosition_cons, if_pos h]

/-- After a message that was kept the rest is looked at from where that has
    led. -/
theorem endPosition_cons_of_kept {r r' : Recorder} {message : Message}
    (h : r.record message = .kept r') (commands : List Command) :
    endPosition r (.emit message :: commands) = endPosition r' commands + 1 := by
  have hgoes : (Command.emit message).ends r = false := by
    rw [Command.ends, h]
  rw [endPosition_cons, hgoes, if_neg Bool.false_ne_true, endPosition]
  congr 2
  funext place
  rw [endsAt, endsAt, List.getElem?_cons_succ, List.take_succ_cons, Command.messages_cons_emit,
    Recorder.recordAll_cons_of_kept h]

/-- Nothing reaches a worker that has ended, however it has ended. -/
theorem sendAll_of_not_running {sink : Sink} (h : sink.isRunning = false)
    (commands : List Command) :
    sink.sendAll commands = (sink, List.replicate commands.length false) := by
  induction commands with
  | nil => rfl
  | cons command commands ih =>
      -- Stopped or broken, it refuses the first command and stays as it is.
      have hrefused : sink.send command = (sink, false) := by
        cases sink with
        | running r => exact absurd h Bool.noConfusion
        | stopped r => rfl
        | broken r => rfl
      rw [sendAll, hrefused, ih, List.length_cons, List.replicate_succ]

theorem map_range_le_zero (n : Nat) :
    (List.range (n + 1)).map (fun place => decide (place ≤ 0)) =
      true :: List.replicate n false := by
  rw [List.range_succ_eq_map, List.map_cons, List.map_map]
  congr 1
  rw [List.eq_replicate_iff, List.length_map, List.length_range]
  refine ⟨rfl, fun taken hmem => ?_⟩
  rcases List.mem_map.mp hmem with ⟨place, -, rfl⟩
  exact decide_eq_false (Nat.not_succ_le_zero place)

theorem map_range_le_succ (n place : Nat) :
    (List.range (n + 1)).map (fun i => decide (i ≤ place + 1)) =
      true :: (List.range n).map (fun i => decide (i ≤ place)) := by
  rw [List.range_succ_eq_map, List.map_cons, List.map_map]
  congr 1
  refine List.map_congr_left fun i _ => ?_
  exact decide_eq_decide.mpr Nat.succ_le_succ_iff

/-- The end of a worker by the command that ended it, for a recorder that has
    recorded the messages before: a message breaks the worker and adds nothing
    to the output, and otherwise the worker stops, as told or for want of
    senders. -/
def EndedBy (r : Recorder) (sink : Sink) : Option Command → Prop
  | some (.emit _) => ∃ q, sink = .broken q ∧ q.outlet = r.outlet
  | _ => ∃ q, sink.hangUp = .stopped q ∧ r.Alike Recorder.SameOutlet q

/-- What has become of commands that were sent to a worker, for a recorder that
    does the same. -/
structure Settled (r : Recorder) (commands : List Command) (run : Sink × List Bool) : Prop where
  sent : run.2 = (List.range commands.length).map
    (fun place => decide (place ≤ endPosition r commands))
  ended : EndedBy (r.recordAll (Command.messages (commands.take (endPosition r commands))))
    run.1 commands[endPosition r commands]?

/-- A command that ends the work is taken, and all that follow are refused. -/
theorem settled_of_ends {r q : Recorder} {command : Command} {sink : Sink}
    (hends : command.ends r = true) (hsend : (running q).send command = (sink, true))
    (hstopped : sink.isRunning = false) (hended : EndedBy r sink (some command))
    (commands : List Command) :
    Settled r (command :: commands) ((running q).sendAll (command :: commands)) := by
  have hplace := endPosition_cons_of_ends hends commands
  have hrun : (running q).sendAll (command :: commands) =
      (sink, true :: List.replicate commands.length false) := by
    rw [sendAll, hsend, sendAll_of_not_running hstopped]
  rw [hrun]
  refine ⟨?_, ?_⟩
  · rw [hplace, List.length_cons, map_range_le_zero]
  · rw [hplace, List.getElem?_cons_zero]
    exact hended

/-- A message that is kept is taken, and the others find what it has led to. -/
theorem settled_of_kept {r r' q q' : Recorder} {message : Message} {commands : List Command}
    (hrecord : r.record message = .kept r') (hrecord' : q.record message = .kept q')
    (h : Settled r' commands ((running q').sendAll commands)) :
    Settled r (.emit message :: commands) ((running q).sendAll (.emit message :: commands)) := by
  have hplace := endPosition_cons_of_kept hrecord commands
  have hsend : (running q).send (.emit message) = (running q', true) := by
    rw [send, hrecord']
    rfl
  rw [sendAll, hsend]
  refine ⟨?_, ?_⟩
  · rw [hplace, List.length_cons, map_range_le_succ, h.sent]
  · rw [hplace, List.getElem?_cons_succ, List.take_succ_cons, Command.messages_cons_emit,
      Recorder.recordAll_cons_of_kept hrecord]
    exact h.ended

/-- A worker and a recorder that do the same come to the same end. -/
theorem settled_sendAll {r q : Recorder} (h : r.Alike Recorder.SameOutlet q)
    (commands : List Command) : Settled r commands ((running q).sendAll commands) := by
  induction commands generalizing r q with
  | nil => exact ⟨rfl, _, rfl, { h with related := h.related }⟩
  | cons command commands ih =>
      cases command with
      | shutdown =>
          have hended : EndedBy r (.stopped q) (some .shutdown) := ⟨q, rfl, h⟩
          exact settled_of_ends rfl rfl rfl hended commands
      | emit message =>
          have hsame := h.record Recorder.upheld_sameOutlet message
          generalize hrecord : r.record message = a at hsame
          generalize hrecord' : q.record message = b at hsame
          -- Recording is the same for both, so it either keeps the message in both or ends both.
          cases hsame with
          | kept h' => exact settled_of_kept hrecord hrecord' (ih h')
          | @unrenderable r' q' h' =>
              have hends : (Command.emit message).ends r = true := by
                rw [Command.ends, hrecord]
              have hsend : (running q).send (.emit message) = (broken q', true) := by
                rw [send, hrecord']
                rfl
              have houtlet : r'.outlet = r.outlet := Recorder.outlet_of_unrenderable hrecord
              have hended : EndedBy r (.broken q') (some (.emit message)) :=
                ⟨q', rfl, h'.related.symm.trans houtlet⟩
              exact settled_of_ends hends hsend rfl hended commands

/-- Commands are sent to a worker one after the other, and then its senders go
    away. Up to the place where the work ends every command is taken, and after
    it none. If a message ended the work, then what was written is what the
    messages before it have written, and no recorder can be had. In all other
    cases the worker's recorder is the one that has recorded the messages before
    that place: the same settings, kept messages, counts, end of printing and
    output. -/
theorem sendAll_start (r : Recorder) (commands : List Command) :
    let run := (start r).sendAll commands
    let place := endPosition r commands
    let recorded := r.recordAll (Command.messages (commands.take place))
    run.2 = (List.range commands.length).map (fun i => decide (i ≤ place)) ∧
      match commands[place]? with
      | some (.emit _) =>
        run.1.hangUp.isBroken = true ∧ run.1.hangUp.join = none ∧
          run.1.hangUp.recorder.outlet = recorded.outlet
      | _ => ∃ q, run.1.hangUp.join = some q ∧ q.unlogged = recorded.unlogged := by
  intro run place recorded
  -- What a worker notes at its start is all that it differs by from the recorder.
  have hsettled := settled_sendAll (r.alike_note (.started r.policy)) commands
  refine ⟨hsettled.sent, ?_⟩
  have hended : EndedBy recorded run.1 commands[place]? := hsettled.ended
  -- By the command at the place, as the end was.
  rcases hcommand : commands[place]? with _ | command
  · rw [hcommand] at hended
    -- Nothing ended the work, and the worker stops when its senders go away.
    rcases hended with ⟨q, hstopped, halike⟩
    exact ⟨q, congrArg join hstopped, halike.unlogged_eq⟩
  · rw [hcommand] at hended
    cases command with
    | shutdown =>
        -- The worker was told to stop, and has stopped already.
        rcases hended with ⟨q, hstopped, halike⟩
        exact ⟨q, congrArg join hstopped, halike.unlogged_eq⟩
    | emit message =>
        -- A message broke it, so that no recorder can be had.
        rcases hended with ⟨q, hbroken, houtlet⟩
        have hhungUp : run.1.hangUp = .broken q := by
          rw [hbroken]
          rfl
        simp only [hhungUp]
        exact ⟨rfl, rfl, houtlet⟩

/-- A span past the end of its source ends the work, unless the limit has
    silenced the recorder by then. -/
example :
    let source : Source := { index := 0, absolutePath := "/a", displayPath := "a", contents := "" }
    let misplaced := Command.emit { source, span := ⟨1, 0⟩, text := "x", kind := .error }
    let error := Command.emit (.unplaced .error "e")
    let options : Options := { snippet := true, errorLimit := 1 }
    let r : Recorder := { policy := .interactive, options, terminal := .plain }
    ((start r).sendAll [error, misplaced, .shutdown, error]).2 = [true, true, true, false] ∧
      ((start r).sendAll [misplaced, error, .shutdown]).2 = [true, false, false] := by
  decide

end Sink

end Diagnostics
