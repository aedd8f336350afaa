import Diagnostics.Sink.Session

/-!
# Rendezvous

A session in the steps that its parties take on their own. In a session a
message is handed over, recorded and done with in one move. Here a producer
first calls, and is then held until the worker takes the message or is gone;
the worker records what it took while others go on calling; a refused message
comes back to its producer, who notes it at some later time. Whoever finalizes
the sink is held in the same way, by a shutdown that has to be taken too, and
then waits for the worker to end.

Nothing is queued in between. A message is with its producer, or with the
worker that records it, or it is accounted for. `Rendezvous.session` says which
session that is, by putting what a producer still holds back on its list and
letting the worker be done with what it has taken.

## Main definitions

* `Caller`: A producer and the call that it is in.
* `Worker`: A worker between commands, or at work on one.
* `Finalizer`: How far the finalizing of a sink has come.
* `Rendezvous`: All parties.
* `Rendezvous.Step`: One step of one party, or the meeting of two.
* `Rendezvous.Reaches`: Any number of steps.
* `Rendezvous.AllDone`: No producer has anything left to do.
* `Rendezvous.session`: What the parties have agreed on.
-/

namespace Diagnostics

/-- The call that a producer is in. -/
inductive Call
  | idle
  /-- Held until the message is taken, or cannot be any more. -/
  | sending (message : Message)
  /-- The message came back, and this has not been noted yet. -/
  | bounced (message : Message)
deriving DecidableEq, Repr

/-- The message that a producer holds. -/
def Call.message? : Call → Option Message
  | .idle => none
  | .sending message => some message
  | .bounced message => some message

/-- A producer and the call that it is in. What it holds is neither pending nor
    accounted for. -/
structure Caller where
  call : Call
  producer : Producer
deriving DecidableEq, Repr

namespace Caller

/-- Whether a producer is in no call and has none to make. -/
def IsDone (caller : Caller) : Prop :=
  caller.call = .idle ∧ caller.producer.pending = []

/-- Whether a producer is done can be decided. -/
instance (caller : Caller) : Decidable caller.IsDone :=
  inferInstanceAs (Decidable (_ ∧ _))

/-- The producer as if it had not begun its call. -/
def settled (caller : Caller) : Producer :=
  { caller.producer with pending := caller.call.message?.toList ++ caller.producer.pending }

end Caller

/-- A worker between commands, or at work on one. -/
inductive Worker
  | resting (sink : Sink)
  | recording (recorder : Recorder) (message : Message)

/-- The sink of a worker once it is done with what it has taken. -/
def Worker.sink : Worker → Sink
  | .resting sink => sink
  | .recording r message => .ofRecorded (r.record message)

/-- How far the finalizing of a sink has come. -/
inductive Finalizer
  | idle
  /-- Held until the shutdown is taken, or cannot be any more. -/
  | asking
  /-- Waiting for the worker to end. -/
  | joining
  | returned (collected : Option Recorder)

/-- How far the end of the session has come, for whoever looks from outside. Being
    held at the shutdown is not to be told from not having begun. -/
def Finalizer.ending : Finalizer → Ending
  | .idle => .awaited
  | .asking => .awaited
  | .joining => .requested
  | .returned collected => .reached collected

/-- All parties of a session, each in the middle of what it does. -/
structure Rendezvous where
  callers : List Caller
  worker : Worker
  /-- What producers have noted about refused messages. -/
  noted : List Entry := []
  finalizer : Finalizer := .idle

namespace Rendezvous

/-- Each list belongs to one producer, and nobody has done anything yet. -/
def start (lists : List (List Message)) (sink : Sink) : Rendezvous :=
  { callers := lists.map fun pending => ⟨.idle, { pending }⟩, worker := .resting sink }

/-- One step of one party, or the meeting of two. The producers to the left of
    the one that moves are named, so that it can be told which one that is. -/
inductive Step : Rendezvous → Rendezvous → Prop
  | call (left : List Caller) {right : List Caller} {message : Message}
      {pending accepted refused : List Message} {worker : Worker} {noted : List Entry}
      {finalizer : Finalizer} :
      Step
        ⟨left ++ ⟨.idle, ⟨message :: pending, accepted, refused⟩⟩ :: right, worker, noted,
          finalizer⟩
        ⟨left ++ ⟨.sending message, ⟨pending, accepted, refused⟩⟩ :: right, worker, noted,
          finalizer⟩
  /-- A running worker takes a message. Its producer is free again. -/
  | take (left : List Caller) {right : List Caller} {message : Message}
      {pending accepted refused : List Message} {r : Recorder} {noted : List Entry}
      {finalizer : Finalizer} :
      Step
        ⟨left ++ ⟨.sending message, ⟨pending, accepted, refused⟩⟩ :: right,
          .resting (.running r), noted, finalizer⟩
        ⟨left ++ ⟨.idle, ⟨pending, accepted ++ [message], refused⟩⟩ :: right,
          .recording r message, noted, finalizer⟩
  /-- The worker is done with a message, or brought down by it. -/
  | record {callers : List Caller} {r : Recorder} {message : Message} {noted : List Entry}
      {finalizer : Finalizer} :
      Step ⟨callers, .recording r message, noted, finalizer⟩
        ⟨callers, .resting (.ofRecorded (r.record message)), noted, finalizer⟩
  /-- A message comes back from a worker that has ended. -/
  | bounce (left : List Caller) {right : List Caller} {message : Message} {producer : Producer}
      {sink : Sink} {noted : List Entry} {finalizer : Finalizer} (h : sink.isRunning = false) :
      Step
        ⟨left ++ ⟨.sending message, producer⟩ :: right, .resting sink, noted, finalizer⟩
        ⟨left ++ ⟨.bounced message, producer⟩ :: right, .resting sink, noted, finalizer⟩
  | note (left : List Caller) {right : List Caller} {message : Message}
      {pending accepted refused : List Message} {worker : Worker} {noted : List Entry}
      {finalizer : Finalizer} :
      Step
        ⟨left ++ ⟨.bounced message, ⟨pending, accepted, refused⟩⟩ :: right, worker, noted,
          finalizer⟩
        ⟨left ++ ⟨.idle, ⟨pending, accepted, refused ++ [message]⟩⟩ :: right, worker,
          noted ++ [.late message.text], finalizer⟩
  | ask {callers : List Caller} {worker : Worker} {noted : List Entry} :
      Step ⟨callers, worker, noted, .idle⟩ ⟨callers, worker, noted, .asking⟩
  /-- A running worker takes the shutdown. -/
  | stop {callers : List Caller} {r : Recorder} {noted : List Entry} :
      Step ⟨callers, .resting (.running r), noted, .asking⟩
        ⟨callers, .resting (.stopped r), noted, .joining⟩
  /-- The worker has ended without being told to. -/
  | giveUp {callers : List Caller} {sink : Sink} {noted : List Entry}
      (h : sink.isRunning = false) :
      Step ⟨callers, .resting sink, noted, .asking⟩ ⟨callers, .resting sink, noted, .joining⟩
  | join {callers : List Caller} {sink : Sink} {noted : List Entry}
      (h : sink.isRunning = false) :
      Step ⟨callers, .resting sink, noted, .joining⟩
        ⟨callers, .resting sink, noted, .returned sink.collect⟩

/-- Any number of steps, of whichever parties. -/
inductive Reaches : Rendezvous → Rendezvous → Prop
  | refl (s : Rendezvous) : Reaches s s
  | step {s t u : Rendezvous} (h : Step s t) (rest : Reaches t u) : Reaches s u

/-- No producer is in a call, and none has any to make. -/
def AllDone (s : Rendezvous) : Prop :=
  ∀ caller ∈ s.callers, caller.IsDone

/-- Whether all producers are done can be decided. -/
instance (s : Rendezvous) : Decidable s.AllDone :=
  List.decidableBAll _ _

/-- What the parties have agreed on: a message is still its producer's until it
    is taken or noted, and the worker's once it is taken. -/
def session (s : Rendezvous) : Session where
  producers := s.callers.map Caller.settled
  sink := s.worker.sink
  noted := s.noted
  ending := s.finalizer.ending

end Rendezvous

end Diagnostics
