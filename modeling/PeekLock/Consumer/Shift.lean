import PeekLock.Consumer.Worker

/-!
# PeekLock.Consumer.Shift

A worker under a clock.

A shift is a worker with the time and the tokens that can end it.  A move
lets time pass, cancels a token, or lets the worker meet with what it waits
for: its own next turn, or the end of the call that it has made.  How its
calls end, and when, is left open, so what holds of every shift that can be
reached holds for every receiver and every handler.

A journal is kept on the side, which nobody reads: all that has happened to
the worker, with the time and the stage that it has come to.
-/

namespace PeekLock.Worker

/-- Whether a worker waits for such an event. -/
def Stage.awaits : Stage → Event → Bool
  | .starting, .started => true
  | .deciding, .looked .. => true
  | .receiving, .received _ => true
  | .handling .., .handled _ => true
  | .handling .., .panicked _ => true
  | .settling .., .settled _ => true
  | .backingOff, .rested => true
  | _, _ => false

/-- Something that has happened to a worker. -/
structure Note where
  /-- When it was, in milliseconds. -/
  time : Nat
  event : Event
  /-- The stage that the worker has come to. -/
  stage : Stage

/-- Whether the worker has begun a receive. -/
def Note.beginsReceive (n : Note) : Bool := n.stage = .receiving

/-- A worker under a clock. -/
structure Shift where
  worker : Worker
  /-- The time, in milliseconds. -/
  now : Nat := 0
  /-- Whether the stop token of its pool is cancelled. -/
  stopped : Bool := false
  /-- Whether the caller's token is cancelled. -/
  callerCancelled : Bool := false
  stage : Stage := .starting
  /-- When its latest pause is over. -/
  due : Nat := 0
  /-- What has happened to it, the oldest first. -/
  journal : List Note := []

namespace Shift

/-- What can happen next. -/
inductive Move where
  | wait (ms : Nat)
  /-- The stop token is cancelled. -/
  | stop
  /-- The caller's token is cancelled. -/
  | cancel
  /-- The worker meets with what it waits for. -/
  | meet (e : Event)

/-- Whether the worker's scope is cancelled, which the caller's token does too. -/
def scopeCancelled (s : Shift) : Bool := s.stopped || s.callerCancelled

/-- Whether an event can happen now.  A look at the tokens shows them as they are, and a
pause is over when its time has come or the scope is cancelled. -/
def admits (s : Shift) (e : Event) : Bool :=
  s.stage.awaits e &&
    match e with
    | .looked caller scope => caller == s.callerCancelled && scope == s.scopeCancelled
    | .rested => s.due ≤ s.now || s.scopeCancelled
    | _ => true

/-- When the pause of a worker that comes to a stage is over. -/
def dueAt (s : Shift) : Stage → Nat
  | .backingOff => s.now + s.worker.settings.errorBackoff.ticks
  | _ => s.due

/-- The worker meets with an event. -/
def meet (s : Shift) (e : Event) : Shift :=
  let stage := (s.worker.react s.stage e).1
  { s with
    stage := stage
    due := s.dueAt stage
    journal := s.journal ++ [⟨s.now, e, stage⟩] }

/-- What a move leads to, if it can happen. -/
def after (s : Shift) : Move → Option Shift
  | .wait ms => some { s with now := s.now + ms }
  | .stop => some { s with stopped := true }
  | .cancel => some { s with callerCancelled := true }
  | .meet e => if s.admits e then some (s.meet e) else none

/-- What some moves lead to, one after the other. -/
def run (s : Shift) (moves : List Move) : Option Shift := moves.foldlM after s

/-- One shift leads to another. -/
inductive Leads : Shift → Shift → Prop where
  | refl (s : Shift) : Leads s s
  | step {s t u : Shift} {m : Move} : Leads s t → t.after m = some u → Leads s u

/-- A shift that can come about. -/
def Reachable (s : Shift) : Prop :=
  ∃ (w : Worker) (began : Nat), Leads { worker := w, now := began } s

/-- The receives that the worker has begun. -/
def receives (s : Shift) : List Note := s.journal.filter Note.beginsReceive

end Shift

end PeekLock.Worker
