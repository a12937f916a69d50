import PeekLock.BusError
import PeekLock.Consumer.Settings
import PeekLock.Pool.Basic

/-!
# PeekLock.Consumer.Lifecycle

The life of a consumer: created, running, stopping, stopped.

Starting moves a created consumer on to running and puts a crew of workers
into its slot.  Stopping moves it on to stopping, takes the crew out of
the slot, waits for it for a limited time, closes the receiver, and ends
in stopped.  There is no way back.  Both calls are given step by step,
each change of the phase and each use of the slot being a step of its own,
so that any number of them can run into each other.
-/

namespace PeekLock

/-- The phases of a consumer's life. -/
inductive Phase where
  | created
  | running
  | stopping
  | stopped
  deriving DecidableEq, Repr, Inhabited

/-- The name of a phase. -/
def Phase.text : Phase → String
  | .created => "Created"
  | .running => "Running"
  | .stopping => "Stopping"
  | .stopped => "Stopped"

/-- The position of a phase in a consumer's life. -/
def Phase.rank : Phase → Nat
  | .created => 0
  | .running => 1
  | .stopping => 2
  | .stopped => 3

/-- The workers of one start. -/
structure Crew where
  pool : Pool
  /-- The name of the caller's token, whose cancellation ends the crew too. -/
  caller : String
  deriving DecidableEq, Inhabited

/-- A consumer. -/
structure Consumer where
  settings : ConsumerSettings
  /-- The number of its receiver. -/
  receiver : Nat
  phase : Phase := .created
  /-- Whether a call is using the slot. -/
  slotHeld : Bool := false
  /-- The crew in the slot. -/
  slot : Option Nat := none
  /-- Every crew that was ever started. -/
  crews : List Crew := []
  deriving DecidableEq, Inhabited

namespace Consumer

/-- The crew of that number. -/
def crew (c : Consumer) (n : Nat) : Crew := c.crews.getD n default

/-- Changes the pool of a crew. -/
def setPool (c : Consumer) (n : Nat) (pool : Pool) : Consumer :=
  { c with crews := c.crews.set n { c.crew n with pool := pool } }

/-- The number of workers of the crew in the slot that have not ended. -/
def activeWorkers (c : Consumer) : Nat := c.slot.elim 0 fun n => (c.crew n).pool.active

/-- The consumer is given up: if its crew is still in the slot, its scope is
cancelled. -/
def drop (c : Consumer) : Consumer :=
  match c.slot with
  | some n => { c.setPool n (c.crew n).pool.cancel with slot := none }
  | none => c

/-- A record under the consumer's target. -/
def log (c : Consumer) (level : Level) (text : String) : LogRecord :=
  ⟨level, .target c.settings.logTarget, text⟩

/-! ## Starting -/

/-- The points of a start. -/
inductive Start where
  /-- Waiting for the slot. -/
  | locking (caller : String)
  /-- About to move on from created to running. -/
  | switching (caller : String)
  /-- About to start the workers. -/
  | spawning (caller : String)
  /-- About to leave the slot after a refusal. -/
  | refusing
  deriving DecidableEq, Repr

/-- Starts so many workers. -/
def hire : Nat → Pool → Pool
  | 0, pool => pool
  | n + 1, pool => hire n pool.spawn.2

namespace Start

/-- The error of a start in the wrong phase. -/
def refusal (phase : Phase) : BusError :=
  .invalidState s!"cannot start a consumer in state {phase.text}"

/-- Whether a start can go on. -/
def isReady (c : Consumer) : Start → Bool
  | .locking _ => !c.slotHeld
  | _ => true

/-- One step of a start; the result is the number of the new crew. -/
def step (c : Consumer) : Start → Step Consumer Start (Except BusError Nat)
  | .locking caller => { state := { c with slotHeld := true }, progress := .on (.switching caller) }
  | .switching caller =>
    if c.phase = .created then
      { state := { c with phase := .running }
        logs := [c.log .info (s!"Starting Service Bus consumer for {c.settings.entity} with " ++
          s!"{c.settings.workers} workers")]
        progress := .on (.spawning caller) }
    else { state := c, progress := .on .refusing }
  | .spawning caller =>
    { state := { c with
        crews := c.crews ++ [⟨hire c.settings.workers {}, caller⟩]
        slot := some c.crews.length
        slotHeld := false }
      progress := .done (.ok c.crews.length) }
  | .refusing =>
    { state := { c with slotHeld := false }, progress := .done (.error (refusal c.phase)) }

end Start

/-! ## Stopping -/

/-- The points of a stop. -/
inductive Stop where
  /-- About to move on from running to stopping. -/
  | claimingRunning (deadline : Option Duration)
  /-- About to move on from created to stopping. -/
  | claimingCreated (deadline : Option Duration)
  /-- About to find that another stop came first. -/
  | ignoring
  /-- Waiting for the slot. -/
  | locking (deadline : Option Duration)
  /-- Waiting for a crew. -/
  | draining (crew : Nat) (wait : Duration) (s : Pool.Shutdown)
  /-- Waiting for the receiver to be closed. -/
  | closing
  /-- About to record that the consumer is stopped. -/
  | storing (closed : Except BusError Unit)

namespace Stop

/-- The result of a stop. -/
abbrev Result := Except BusError Unit

/-- How long a stop waits for the workers: no longer than the settings say, and
no longer than it is told. -/
def wait (c : Consumer) (deadline : Option Duration) : Duration :=
  deadline.elim c.settings.shutdownTimeout fun d => d.min c.settings.shutdownTimeout

/-- Whether a stop can go on. -/
def isReady (now : Nat) (c : Consumer) : Stop → Bool
  | .locking _ => !c.slotHeld
  | .draining crew _ s => s.isReady now (c.crew crew).pool
  | .closing => false
  | _ => true

/-- When a stop goes on by itself. -/
def deadline? : Stop → Option Nat
  | .draining _ _ s => s.deadline?
  | _ => none

/-- The move on to stopping succeeded. -/
def claimed (c : Consumer) (deadline : Option Duration) : Step Consumer Stop Result :=
  { state := { c with phase := .stopping }
    logs := [c.log .info s!"Stopping Service Bus consumer for {c.settings.entity}"]
    progress := .on (.locking deadline) }

/-- What is logged after the wait for the workers. -/
def drainedLog (c : Consumer) (wait : Duration) (pool : Pool) (all : Bool) : LogRecord :=
  if all then c.log .info "All workers stopped"
  else
    c.log .warn (s!"Timeout waiting for workers to stop after {wait.text}, " ++
      s!"{pool.active} still running")

/-- One step of a stop.  At `closing` nothing happens before `closed` tells how
the receiver was closed. -/
def step (now : Nat) (c : Consumer) : Stop → Step Consumer Stop Result
  | .claimingRunning deadline =>
    if c.phase = .running then claimed c deadline
    else { state := c, progress := .on (.claimingCreated deadline) }
  | .claimingCreated deadline =>
    if c.phase = .created then claimed c deadline else { state := c, progress := .on .ignoring }
  | .ignoring =>
    { state := c
      logs := [c.log .debug s!"Consumer already {c.phase.text}, ignoring stop"]
      progress := .done (.ok ()) }
  | .locking deadline =>
    let c' := { c with slot := none }
    match c.slot with
    | none => { state := c', progress := .on .closing }
    | some crew =>
      let wait := wait c deadline
      { state := c', progress := .on (.draining crew wait (.stopping wait.ticks)) }
  | .draining crew wait s =>
    let r := s.step now (c.crew crew).pool
    let c := c.setPool crew r.state
    match r.progress with
    | .on s => { state := c, logs := r.logs, progress := .on (.draining crew wait s) }
    | .done all =>
      { state := c, logs := r.logs ++ [drainedLog c wait r.state all], progress := .on .closing }
  | .closing => { state := c, progress := .on .closing }
  | .storing closed =>
    let c := { c with phase := .stopped }
    match closed with
    | .ok () => { state := c, logs := [c.log .info "Consumer stopped"], progress := .done (.ok ()) }
    | .error e =>
      { state := c
        logs := [c.log .error s!"Failed to close receiver: {e.message}"]
        progress := .done (.error e) }

end Stop

/-! ## Creating -/

/-- The error of a consumer whose receiver could not be created. -/
def creationError (entity : String) : BusError → BusError
  | .consumerCreationFailed detail => .consumerCreationFailed detail
  | .invalidQueueName name => .invalidQueueName name
  | e => .consumerCreationFailed s!"Failed to create receiver for {entity}: {e.message}"

end Consumer

end PeekLock
