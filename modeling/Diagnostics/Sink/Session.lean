import Diagnostics.Sink
import Diagnostics.Sink.Interleaving

/-!
# Sessions

Several producers report to one sink, and somebody closes it at some moment.
Since a command is handed over and never queued, a session is a sequence of
single moves: a producer hands over its next message, or has it refused; the
sink is told to stop; the stopped sink is collected. Which move comes next is
nobody's decision, so everything that is true of a session has to be true for
every sequence of moves.

`Session.Step` says what one move may be. `produce`, `close` and `collect` make
a particular one, and do nothing if it is not possible, so that every list of
choices is a run. `play` lets producers move in a given order and then lets each
say what it still has to say.

A producer remembers what became of its messages. Nothing reads that during a
session; it is there to be spoken about.

## Main definitions

* `Producer`: What a producer has to report, and what became of the rest.
* `Ending`: How far the end of a session has come.
* `Session`: Producers, their sink, and its end.
* `Session.produce`, `Session.close`, `Session.collect`: The moves.
* `Session.Step`: One move, as a relation.
* `Session.Reaches`: Any number of moves.
* `Session.play`: A run in which all producers finish.
-/

namespace Diagnostics

/-- What a producer still has to report, and what became of the rest. -/
structure Producer where
  pending : List Message
  accepted : List Message := []
  refused : List Message := []
deriving DecidableEq, Repr

/-- How far the end of a session has come. -/
inductive Ending
  | awaited
  | requested
  /-- The sink has been collected, successfully or not. -/
  | reached (collected : Option Recorder)

/-- Producers, the sink they report to, and the end of it. -/
structure Session where
  producers : List Producer
  sink : Sink
  /-- What producers have noted about refused messages. -/
  noted : List Entry := []
  ending : Ending := .awaited

namespace Session

/-- A session in which each list belongs to one producer. -/
def start (lists : List (List Message)) (sink : Sink) : Session :=
  { producers := lists.map fun pending => { pending }, sink }

/-- Let a producer hand over its next message, if it has one. -/
def produce (session : Session) (i : Nat) : Session :=
  match session.producers[i]? with
  | none => session
  | some producer =>
    match producer.pending with
    | [] => session
    | message :: pending =>
      let handed := session.sink.report message
      let producer :=
        if session.sink.isRunning then
          { producer with pending, accepted := producer.accepted ++ [message] }
        else { producer with pending, refused := producer.refused ++ [message] }
      { session with
        producers := session.producers.set i producer
        sink := handed.1
        noted := session.noted ++ handed.2 }

/-- Tell the sink to stop, unless it was told before. -/
def close (session : Session) : Session :=
  match session.ending with
  | .awaited => { session with sink := session.sink.close, ending := .requested }
  | _ => session

/-- Collect the sink once it was told to stop. -/
def collect (session : Session) : Session :=
  match session.ending with
  | .requested => { session with ending := .reached session.sink.collect }
  | _ => session

/-- One move of a session. Which of the possible moves is made is left open. -/
inductive Step : Session → Session → Prop
  /-- A running sink takes the next message of a producer. -/
  | accept {left right : List Producer} {message : Message}
      {pending accepted refused : List Message} {r : Recorder} {noted : List Entry}
      {ending : Ending} :
      Step ⟨left ++ ⟨message :: pending, accepted, refused⟩ :: right, .running r, noted, ending⟩
        ⟨left ++ ⟨pending, accepted ++ [message], refused⟩ :: right,
          .ofRecorded (r.record message), noted, ending⟩
  /-- A sink that no longer runs refuses it. -/
  | refuse {left right : List Producer} {message : Message}
      {pending accepted refused : List Message} {sink : Sink} {noted : List Entry}
      {ending : Ending} (h : sink.isRunning = false) :
      Step ⟨left ++ ⟨message :: pending, accepted, refused⟩ :: right, sink, noted, ending⟩
        ⟨left ++ ⟨pending, accepted, refused ++ [message]⟩ :: right, sink,
          noted ++ [.late message.text], ending⟩
  | close {producers : List Producer} {sink : Sink} {noted : List Entry} :
      Step ⟨producers, sink, noted, .awaited⟩ ⟨producers, sink.close, noted, .requested⟩
  | collect {producers : List Producer} {sink : Sink} {noted : List Entry} :
      Step ⟨producers, sink, noted, .requested⟩
        ⟨producers, sink, noted, .reached sink.collect⟩

/-- Any number of moves. -/
inductive Reaches : Session → Session → Prop
  | refl (s : Session) : Reaches s s
  | step {s t u : Session} (h : Step s t) (rest : Reaches t u) : Reaches s u

/-- The order in which producers speak if each says all it has before the next
    one begins. -/
def turns (session : Session) : List Nat :=
  session.producers.zipIdx.flatMap fun (producer, i) =>
    List.replicate producer.pending.length i

/-- Let producers move in the given order, then let each finish in turn. -/
def play (session : Session) (order : List Nat) : Session :=
  let session := order.foldl produce session
  session.turns.foldl produce session

/-- Let producers move in the given order and finish, then close and collect. -/
def playOut (session : Session) (order : List Nat) : Session :=
  (session.play order).close.collect

/-- What was collected at the end, if the end was reached and in order. -/
def collected (session : Session) : Option Recorder :=
  match session.ending with
  | .reached collected => collected
  | _ => none

end Session

end Diagnostics
