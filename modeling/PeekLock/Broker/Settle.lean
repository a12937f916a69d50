import PeekLock.Broker.Basic
import PeekLock.Progress

/-!
# PeekLock.Broker.Settle

Completing and abandoning messages of the in-memory bus, and closing its
receivers.

A settlement that is refused changes nothing: the receiver is closed, a
fault is set, or the token is not one that the receiver holds.  Otherwise
the lock is released in one section and what became of the message is
recorded in the next.  Where messages have become visible again, the calls
that wait for them are told in a step of its own.
-/

namespace PeekLock

/-- What is to become of a message. -/
inductive Verdict where
  | complete
  | abandon
  deriving DecidableEq, Repr, Inhabited

namespace Broker

/-! ## Settling -/

/-- Where a settlement is suspended. -/
inductive Settle.Point where
  /-- About to ask for a fault. -/
  | readingFault
  /-- About to release the lock. -/
  | releasing
  /-- About to record what became of the copy. -/
  | recording (l : Lock)
  /-- About to tell that a message is visible again. -/
  | announcing
  deriving DecidableEq

/-- A settlement on its way. -/
structure Settle where
  receiver : Receiver
  token : LockToken
  verdict : Verdict
  point : Settle.Point := .readingFault
  deriving DecidableEq

namespace Settle

/-- The fault that a settlement shows. -/
def fault? (b : Broker) : Verdict → Option BusError
  | .complete => b.faults.completeError
  | .abandon => b.faults.abandonError

/-- Records what became of a released copy. -/
def record (b : Broker) (l : Lock) : Verdict → Broker
  | .complete => b.recordCompleted l
  | .abandon => b.recordAbandoned l

/-- One step of a settlement. -/
def step (b : Broker) (c : Settle) : Step Broker Settle (Except BusError Unit) :=
  match c.point with
  | .readingFault =>
    if b.isOpen c.receiver then
      match fault? b c.verdict with
      | some e => { state := b, progress := .done (.error e) }
      | none => { state := b, progress := .on { c with point := .releasing } }
    else { state := b, progress := .done (.error .receiverClosed) }
  | .releasing =>
    match b.lock? c.receiver c.token with
    | some l => { state := b.unlock c.token, progress := .on { c with point := .recording l } }
    | none => { state := b, progress := .done (.error (.lockLost c.token.text)) }
  | .recording l =>
    { state := record b l c.verdict
      progress := match c.verdict with
        | .complete => .done (.ok ())
        | .abandon => .on { c with point := .announcing } }
  | .announcing => { state := b.broadcast, progress := .done (.ok ()) }

end Settle

/-! ## Closing -/

/-- Where a close is suspended. -/
inductive Close.Point where
  /-- About to mark the receiver as closed. -/
  | marking
  /-- About to let the locks lapse. -/
  | lapsing
  /-- About to tell that messages may be visible again. -/
  | announcing
  deriving DecidableEq, Repr

/-- A close on its way. -/
structure Close where
  receiver : Receiver
  point : Close.Point := .marking
  deriving DecidableEq, Repr

/-- The record of a close. -/
def Close.log (r : Receiver) : LogRecord :=
  .memory .debug s!"Closed in-memory receiver {r.id} for {r.entity}"

/-- One step of a close; closing a closed receiver does nothing. -/
def Close.step (b : Broker) (c : Close) : Step Broker Close (Except BusError Unit) :=
  match c.point with
  | .marking =>
    if b.isOpen c.receiver then
      { state := { b with closed := c.receiver.id :: b.closed }
        progress := .on { c with point := .lapsing } }
    else { state := b, progress := .done (.ok ()) }
  | .lapsing => { state := b.lapse c.receiver, progress := .on { c with point := .announcing } }
  | .announcing =>
    { state := b.broadcast, logs := [Close.log c.receiver], progress := .done (.ok ()) }

end Broker

end PeekLock
