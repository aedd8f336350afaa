import Diagnostics.Sink.Recorder

/-!
# Sinks

A sink is a worker that owns a recorder and takes commands one at a time. A
command is handed over, not queued: a hand-over succeeds exactly if the worker
takes the command, so a sender knows what became of it, and nothing is ever
waiting inside.

A worker stops in one of three ways. It is told to; all its senders go away; or
it is given a message that cannot be rendered. The last is not an orderly end.
The recorder it leaves behind is still there, and what was printed by then has
been printed, but there is nothing to collect.

Being handed over and being recorded are two things: the message that brings a
worker down was itself taken. Only what comes after it is refused, and a refused
message is noted by whoever sent it.

## Main definitions

* `Command`: What a sink can be told.
* `Sink`: A worker in one of its three states.
* `Sink.start`: A sink that begins to take commands.
* `Sink.send`: Hand over one command.
* `Sink.sendAll`: Hand over commands one after the other.
* `Sink.hangUp`: The end of all senders.
* `Sink.report`, `Sink.replay`: Hand over messages and note the refused ones.
* `Sink.close`: Tell a sink to stop.
* `Sink.join`: Take the recorder of a stopped sink as it is.
* `Sink.collect`: Finish a stopped sink and take its recorder.
* `Sink.finalize`: Close and collect.
* `Sink.interactive`, `Sink.deferred`: The two sinks in use.
-/

namespace Diagnostics

/-- What a sink can be told. -/
inductive Command
  | emit (message : Message)
  | shutdown
deriving DecidableEq, Repr

/-- A worker that owns a recorder. -/
inductive Sink
  | running (recorder : Recorder)
  | stopped (recorder : Recorder)
  /-- It was brought down by a message; the recorder is what that left behind. -/
  | broken (recorder : Recorder)

namespace Sink

/-- The recorder of a sink, in whatever state the sink is. -/
def recorder : Sink → Recorder
  | .running r => r
  | .stopped r => r
  | .broken r => r

/-- Whether the worker still takes commands. -/
def isRunning : Sink → Bool
  | .running _ => true
  | _ => false

/-- Whether a message has brought the worker down. -/
def isBroken : Sink → Bool
  | .broken _ => true
  | _ => false

/-- A sink that begins to take commands. -/
def start (r : Recorder) : Sink :=
  .running (r.note (.started r.policy))

/-- A sink after a message, according to what became of that. -/
def ofRecorded : Recorded → Sink
  | .kept r => .running r
  | .unrenderable r => .broken r

/-- Hand over one command. The second component says whether it was taken. -/
def send (sink : Sink) (command : Command) : Sink × Bool :=
  match sink with
  | .running r =>
    match command with
    | .emit message => (ofRecorded (r.record message), true)
    | .shutdown => (.stopped r, true)
  | .stopped r => (.stopped r, false)
  | .broken r => (.broken r, false)

/-- Hand over commands one after the other, and say of each whether it was
    taken. -/
def sendAll (sink : Sink) : List Command → Sink × List Bool
  | [] => (sink, [])
  | command :: rest =>
    let handed := sink.send command
    let others := handed.1.sendAll rest
    (others.1, handed.2 :: others.2)

/-- The end of all senders. A worker that still runs notes it and stops. -/
def hangUp : Sink → Sink
  | .running r => .stopped (r.note .disconnected)
  | .stopped r => .stopped r
  | .broken r => .broken r

/-- Hand over a message. The second component is what the sender notes. -/
def report (sink : Sink) (message : Message) : Sink × List Entry :=
  let handed := sink.send (.emit message)
  (handed.1, if handed.2 then [] else [.late message.text])

/-- Hand over messages one after the other. -/
def replay (sink : Sink) : List Message → Sink × List Entry
  | [] => (sink, [])
  | message :: rest =>
    let handed := sink.report message
    let others := handed.1.replay rest
    (others.1, handed.2 ++ others.2)

/-- Tell a sink to stop. One that has stopped already stays as it is. -/
def close (sink : Sink) : Sink :=
  (sink.send .shutdown).1

/-- Take the recorder of a sink that has stopped in order, as the worker has left
    it. There is none to take of a broken sink, nor of one that still runs. -/
def join : Sink → Option Recorder
  | .stopped r => some r
  | .running _ => none
  | .broken _ => none

/-- Finish a sink that has stopped in order, and take its recorder. A broken
    sink has nothing to collect, and one that runs is not ready. -/
def collect : Sink → Option Recorder
  | .stopped r => some r.finish
  | .running _ => none
  | .broken _ => none

/-- Tell a sink to stop and collect it. After a message that broke it there is
    nothing to collect. -/
def finalize (sink : Sink) : Option Recorder :=
  sink.close.collect

/-- A sink that prints messages as they arrive. The choice of colour among the
    options is put on top of what is known of the terminal. -/
def interactive (options : Options) (terminal : Terminal) (outlet : Outlet) : Sink :=
  start
    { policy := .interactive, options, outlet
      terminal := terminal.withColorMode options.color }

/-- A sink that only keeps messages, to be replayed into another one. -/
def deferred : Sink :=
  start { policy := .deferred, options := {}, terminal := .plain }

end Sink

end Diagnostics
