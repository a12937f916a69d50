import PeekLock.Broker.Basic
import PeekLock.Progress

/-!
# PeekLock.Broker.Receive

Receiving from the in-memory bus.

A receive that finds its queue empty parks itself until it is told to
look again or its time is over.  It notes how often that has been told
*before* it looks at the queue, so a message that arrives in between is
not missed.  Dropping a receive at any of its points moves no message.
-/

namespace PeekLock.Broker

/-- Where a receive is suspended. -/
inductive Receive.Point where
  /-- Not begun yet. -/
  | arriving
  /-- About to ask for faults. -/
  | readingFaults
  /-- Delayed until a point in time. -/
  | delayed (due : Nat)
  /-- About to check that the receiver is open, with a deadline and the
  broadcasts seen so far. -/
  | checking (deadline seen : Nat)
  /-- About to look at the queue. -/
  | looking (deadline seen : Nat)
  /-- Waiting for the next broadcast. -/
  | parked (deadline seen : Nat)
  deriving DecidableEq, Repr

/-- A receive on its way. -/
structure Receive where
  receiver : Receiver
  /-- The most messages it asks for. -/
  most : Nat
  timeout : Duration
  point : Receive.Point := .arriving
  deriving DecidableEq, Repr

namespace Receive

/-- Whether a receive can go on. -/
def isReady (now : Nat) (b : Broker) (c : Receive) : Bool :=
  match c.point with
  | .delayed due => due ≤ now
  | .parked deadline seen => b.broadcasts ≠ seen || deadline ≤ now
  | _ => true

/-- When a receive goes on by itself. -/
def deadline? (c : Receive) : Option Nat :=
  match c.point with
  | .delayed due => some due
  | .parked deadline _ => some deadline
  | _ => none

/-- The result of a receive. -/
abbrev Result := Except BusError (List Message)

/-- Suspends a receive at another point. -/
def goTo (c : Receive) (b : Broker) (p : Point) : Step Broker Receive Result :=
  { state := b, progress := .on { c with point := p } }

/-- Ends a receive that has begun. -/
def finish (b : Broker) (r : Result) : Step Broker Receive Result :=
  { state := b.leaveReceive, progress := .done r }

/-- Gets ready to look at the queue. -/
def arm (c : Receive) (b : Broker) (deadline : Nat) : Step Broker Receive Result :=
  c.goTo b (.checking deadline b.broadcasts)

/-- Starts the time that the receive may take. -/
def startClock (c : Receive) (now : Nat) (b : Broker) : Step Broker Receive Result :=
  c.arm b (now + c.timeout.ticks)

/-- The error of a receive that is made to time out. -/
def timedOut (r : Receiver) : BusError := .operationTimeout s!"receive on {r.entity} timed out"

/-- One step of a receive. -/
def step (now : Nat) (b : Broker) (c : Receive) : Step Broker Receive Result :=
  match c.point with
  | .arriving =>
    if b.isOpen c.receiver then c.goTo b.enterReceive .readingFaults
    else { state := b, progress := .done (.error .receiverClosed) }
  | .readingFaults =>
    match b.faults.receiveError, b.faults.timeouts, b.faults.latency with
    | some e, _, _ => finish b (.error e)
    | none, n + 1, _ =>
      finish { b with faults := { b.faults with timeouts := n } } (.error (timedOut c.receiver))
    | none, 0, some latency => c.goTo b (.delayed (now + latency.ticks))
    | none, 0, none => c.startClock now b
  | .delayed _ => c.startClock now b
  | .checking deadline seen =>
    if b.isOpen c.receiver then c.goTo b (.looking deadline seen)
    else finish b (.error .receiverClosed)
  | .looking deadline seen =>
    let (messages, taken) := b.take c.receiver c.most
    if messages.isEmpty then c.goTo b (.parked deadline seen) else finish taken (.ok messages)
  | .parked deadline seen =>
    if b.broadcasts ≠ seen then c.arm b deadline else finish b (.ok [])

/-- Drops a receive. -/
def drop (b : Broker) (c : Receive) : Broker :=
  if c.point = .arriving then b else b.leaveReceive

end Receive

end PeekLock.Broker
