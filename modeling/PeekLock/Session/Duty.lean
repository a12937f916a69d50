import PeekLock.Consumer.Worker
import PeekLock.Session.World

/-!
# PeekLock.Session.Duty

A worker at its work.

The worker says what it waits for (`Worker.Stage`); a duty carries out the
call that brings it about: a receive, a run of the handler, a settlement,
or a pause.  While it receives, the cancellation of the caller's token
comes first; a pause ends early when the worker's scope is cancelled.
-/

namespace PeekLock.Session

/-- A run of a handler on its way. -/
inductive HandlerRun where
  /-- About to be called. -/
  | calling
  /-- Busy until a point in time. -/
  | delayed (due : Nat) (action : Action)
  | acting (action : Action)
  deriving DecidableEq, Repr

/-- The call that a worker waits for. -/
inductive DutyCall where
  | none
  | receive (c : Bus.Receive)
  | handle (context : MessageContext) (h : HandlerRun)
  | settle (c : Bus.Settle)
  | pause (due : Nat)

/-- A worker at its work. -/
structure Duty where
  consumer : Nat
  crew : Nat
  worker : Worker
  stage : Worker.Stage := .starting
  call : DutyCall := .none

namespace HandlerRun

/-- Whether a handler can go on. -/
def isReady (now : Nat) (scopeCancelled : Bool) : HandlerRun → Bool
  | .delayed due _ => due ≤ now
  | .acting .hang => false
  | .acting .waitForCancel => scopeCancelled
  | _ => true

/-- When a handler goes on by itself. -/
def deadline? : HandlerRun → Option Nat
  | .delayed due _ => some due
  | _ => none

end HandlerRun

namespace Duty

/-- Whether a worker can go on. -/
def isReady (now : Nat) (w : World) (d : Duty) : Bool :=
  match d.call with
  | .none => true
  | .receive c => c.isReady now w.bus || w.callerCancelled d.consumer d.crew
  | .handle _ h => h.isReady now (w.scopeCancelled d.consumer d.crew)
  | .settle c => c.isReady w.bus
  | .pause due => due ≤ now || w.scopeCancelled d.consumer d.crew

/-- When a worker goes on by itself. -/
def deadline? (d : Duty) : Option Nat :=
  match d.call with
  | .receive c => c.deadline?
  | .handle _ h => h.deadline?
  | .pause due => some due
  | _ => none

/-- Begins the call that a worker makes. -/
def begin (w : World) (d : Duty) : Worker.Call → DutyCall
  | .receive most timeout =>
    .receive (.knocking (w.member d.consumer).consumer.receiver most timeout)
  | .handle context => .handle context .calling
  | .settle token verdict =>
    .settle (.start w.bus (w.member d.consumer).consumer.receiver token verdict)

/-- The call that a stage waits for. -/
def callFor (now : Nat) (w : World) (d : Duty) (stage : Worker.Stage) : DutyCall :=
  match d.worker.call? stage, stage with
  | some c, _ => d.begin w c
  | none, .backingOff => .pause (now + d.worker.settings.errorBackoff.ticks)
  | none, _ => .none

/-- A worker has ended. -/
def leave (w : World) (d : Duty) (how : Exit) : World :=
  let c := (w.member d.consumer).consumer
  w.setConsumer d.consumer (c.setPool d.crew ((c.crew d.crew).pool.finish d.worker.number how))

/-- Tells the worker what has happened. -/
def feed (now : Nat) (w : World) (d : Duty) (e : Worker.Event) : World × Option Duty :=
  let (stage, logs) := d.worker.react d.stage e
  let w := w.write logs
  match stage with
  | .ended how => (d.leave w how, none)
  | stage => (w, some { d with stage := stage, call := d.callFor now w stage })

/-- Calls the handler. -/
def callHandler (now : Nat) (w : World) (d : Duty) (context : MessageContext) :
    World × Option Duty :=
  match (w.member d.consumer).handler with
  | .service =>
    let (result, logs, stats) := Service.logMessage context w.stats
    d.feed now ({ w with stats := stats }.write logs) (.handled result)
  | .rules rules =>
    let call : Handled := ⟨context, now, w.scopeCancelled d.consumer d.crew⟩
    let w := { w with handled := w.handled ++ [call] }
    let rule := (rules.find? (·.fits context.message)).getD {}
    let run : HandlerRun := match rule.delay with
      | some ms => .delayed (now + ms) rule.action
      | none => .acting rule.action
    (w, some { d with call := .handle context run })

/-- One step of a handler. -/
def stepHandler (now : Nat) (w : World) (d : Duty) (context : MessageContext) :
    HandlerRun → World × Option Duty
  | .calling => d.callHandler now w context
  | .delayed _ action => (w, some { d with call := .handle context (.acting action) })
  | .acting .accept | .acting .waitForCancel => d.feed now w (.handled (.ok ()))
  | .acting (.reject text) => d.feed now w (.handled (.error text))
  | .acting (.panic text) => d.feed now w (.panicked text)
  | .acting .hang => (w, some d)

/-- One step of a worker at its work. -/
def step (now : Nat) (w : World) (d : Duty) : World × Option Duty :=
  match d.stage, d.call with
  | .starting, _ => d.feed now w .started
  | .receiving, .receive c =>
    if w.callerCancelled d.consumer d.crew then
      d.feed now { w with bus := c.drop w.bus } (.received (.error Worker.interrupted))
    else
      let r := c.step now w.bus
      let w := { w with bus := r.state }.write r.logs
      match r.progress with
      | .on c => (w, some { d with call := .receive c })
      | .done result => d.feed now w (.received result)
  | .handling _ _, .handle context h => d.stepHandler now w context h
  | .settling _ _ _, .settle c =>
    let r := c.step w.bus
    let w := { w with bus := r.state }.write r.logs
    match r.progress with
    | .on c => (w, some { d with call := .settle c })
    | .done result => d.feed now w (.settled result)
  | .backingOff, _ => d.feed now w .rested
  | _, _ =>
    d.feed now w
      (.looked (w.callerCancelled d.consumer d.crew) (w.scopeCancelled d.consumer d.crew))

end Duty

end PeekLock.Session
