import PeekLock.BusError
import PeekLock.Consumer.Settings
import PeekLock.Log
import PeekLock.Message
import PeekLock.Pool.Basic
import PeekLock.Broker.Settle

/-!
# PeekLock.Consumer.Worker

One polling loop of a consumer.

A worker receives a batch, hands the messages to the handler one after the
other, and settles each of them before it turns to the next: it completes
the message if the handler succeeded and abandons it otherwise.  Failures
of receives and settlements are logged and never end the worker; only the
cancellation of its scope or of the caller's token does, and both are
looked at before every receive.

The worker is an automaton.  `Worker.Stage` says what it waits for,
`Worker.call?` which call brings that about, and `Worker.react` what the
worker does when it has happened.  Who carries the calls out is not its
business.
-/

namespace PeekLock

/-- A worker of a consumer. -/
structure Worker where
  number : Nat
  settings : ConsumerSettings
  deriving DecidableEq, Repr

namespace Worker

/-- What a worker waits for. -/
inductive Stage where
  /-- Its first turn. -/
  | starting
  /-- A look at the tokens. -/
  | deciding
  /-- The result of a receive. -/
  | receiving
  /-- The handler, with the messages that come after this one. -/
  | handling (m : Message) (rest : List Message)
  /-- The result of a settlement. -/
  | settling (m : Message) (verdict : Verdict) (rest : List Message)
  /-- The end of a pause. -/
  | backingOff
  /-- Nothing any more. -/
  | ended (how : Exit)
  deriving DecidableEq

/-- What happens to a worker. -/
inductive Event where
  | started
  /-- Whether the caller's token and the worker's scope are cancelled. -/
  | looked (caller scope : Bool)
  | received (result : Except BusError (List Message))
  /-- The handler returned; an error comes with its text. -/
  | handled (result : Except String Unit)
  /-- The handler panicked. -/
  | panicked (text : String)
  | settled (result : Except BusError Unit)
  | rested

/-- What a worker calls. -/
inductive Call where
  | receive (most : Nat) (timeout : Duration)
  | handle (context : MessageContext)
  /-- Completes or abandons the message of a token. -/
  | settle (token : LockToken) (verdict : Verdict)
  deriving DecidableEq

/-- What a worker hands to the handler with a message. -/
def contextOf (w : Worker) (m : Message) : MessageContext :=
  .of m w.number w.settings.entity

/-- The call that a worker makes when it comes to a stage. -/
def call? (w : Worker) : Stage → Option Call
  | .receiving => some (.receive w.settings.batch w.settings.receiveTimeout)
  | .handling m _ => some (.handle (w.contextOf m))
  | .settling m verdict _ => some (.settle m.lockToken verdict)
  | _ => none

/-- What a receive ends with when the caller's token is cancelled. -/
def interrupted : BusError := .cancelled "caller cancelled receive"

/-- A record under the consumer's target. -/
def log (w : Worker) (level : Level) (text : String) : LogRecord :=
  ⟨level, .target w.settings.logTarget, s!"Worker {w.number} " ++ text⟩

/-- Turns to the next message of a batch, or back to the tokens. -/
def turnTo : List Message → Stage
  | [] => .deciding
  | m :: rest => .handling m rest

/-- What becomes of a message after the handler. -/
def verdictOn : Except String Unit → Verdict
  | .ok () => .complete
  | .error _ => .abandon

/-- What is logged when the handler has returned. -/
def handledLogs (w : Worker) (m : Message) : Except String Unit → List LogRecord
  | .ok () => []
  | .error e => [w.log .error s!"handler failed for message {m.id}: {e}"]

/-- What is logged when a message is settled. -/
def settledLogs (w : Worker) (m : Message) (verdict : Verdict) :
    Except BusError Unit → List LogRecord
  | .ok () =>
    match verdict with
    | .complete => [w.log .debug s!"processed message {m.id} successfully"]
    | .abandon => []
  | .error e =>
    match verdict with
    | .complete => [w.log .error s!"failed to complete message {m.id}: {e.message}"]
    | .abandon => [w.log .error s!"failed to abandon message {m.id}: {e.message}"]

/-- What a worker does about an event.  An event that it does not wait for
changes nothing. -/
def react (w : Worker) : Stage → Event → Stage × List LogRecord
  | .starting, .started => (.deciding, [w.log .info "started"])
  | .deciding, .looked true _ => (.ended .returned, [w.log .info "stopping (context cancelled)"])
  | .deciding, .looked false true => (.ended .returned, [w.log .info "stopping"])
  | .deciding, .looked false false => (.receiving, [])
  | .receiving, .received (.ok messages) => (turnTo messages, [])
  | .receiving, .received (.error e) =>
    if e.isEmptyPoll then (.deciding, [w.log .trace s!"empty poll: {e.message}"])
    else
      (.backingOff,
        [w.log .error s!"failed to receive messages from {w.settings.entity}: {e.message}"])
  | .handling m rest, .handled result =>
    (.settling m (verdictOn result) rest, w.handledLogs m result)
  | .handling _ _, .panicked text => (.ended (.panicked text), [])
  | .settling m verdict rest, .settled result => (turnTo rest, w.settledLogs m verdict result)
  | .backingOff, .rested => (.deciding, [])
  | stage, _ => (stage, [])

end Worker

end PeekLock
