import PeekLock.Consumer.Lifecycle

/-!
# PeekLock.Consumer.Life

Any number of starts and stops of one consumer, in any order.

A life is a consumer with every call that was ever begun on it.  A move
begins a call, lets one of them take its next step, lets the receiver's
close return to the stop that waits for it, lets a worker end, or lets
time pass.  Which move comes next is left open, and so are the results of
the close and what the workers do.
-/

namespace PeekLock.Consumer

/-- A call of the consumer on its way. -/
inductive Call where
  | starting (s : Start)
  | stopping (s : Stop)

/-- What a call has ended with. -/
inductive Outcome where
  | started (result : Except BusError Nat)
  | stopped (result : Stop.Result)

namespace Call

/-- Whether a call can go on. -/
def isReady (now : Nat) (c : Consumer) : Call → Bool
  | .starting s => s.isReady c
  | .stopping s => s.isReady now c

/-- One step of a call. -/
def step (now : Nat) (c : Consumer) : Call → Step Consumer Call Outcome
  | .starting s => (s.step c).map .starting .started
  | .stopping s => (s.step now c).map .stopping .stopped

end Call

/-- What can be asked of the consumer. -/
inductive Request where
  /-- To start, under a token of the caller. -/
  | start (caller : String)
  /-- To stop, and to wait no longer than that for the workers. -/
  | stop (deadline : Option Duration)

/-- The call that a request begins. -/
def Request.call : Request → Call
  | .start caller => .starting (.locking caller)
  | .stop deadline => .stopping (.claimingRunning deadline)

/-- A call that was begun. -/
structure Entry where
  request : Request
  progress : Progress Call Outcome

/-- A consumer with every call that was ever begun on it. -/
structure Life where
  /-- The time, in milliseconds. -/
  now : Nat := 0
  consumer : Consumer
  /-- The calls, by number. -/
  calls : List Entry := []

/-- What can happen next. -/
inductive Move where
  | begin (q : Request)
  /-- The call of that number takes its next step. -/
  | advance (call : Nat)
  /-- The receiver's close returns to the stop of that number. -/
  | answer (call : Nat) (closed : Except BusError Unit)
  /-- A worker ends. -/
  | finish (crew worker : Nat) (how : Exit)
  | wait (ms : Nat)

/-- Whether a worker is at work. -/
def isAtWork (c : Consumer) (crew worker : Nat) : Bool :=
  crew < c.crews.length && worker < (c.crew crew).pool.spawned &&
    ((c.crew crew).pool.exits.get? worker).isNone

namespace Life

/-- A consumer that was just built. -/
def new (settings : ConsumerSettings) (receiver : Nat) : Life :=
  { consumer := { settings := settings.normalized, receiver := receiver } }

/-- A call is begun. -/
def accept (s : Life) (q : Request) : Life := { s with calls := s.calls ++ [⟨q, .on q.call⟩] }

/-- The call of that number leaves a consumer behind and goes on, or is over. -/
def resume (s : Life) (i : Nat) (q : Request) (c : Consumer) (p : Progress Call Outcome) : Life :=
  { s with consumer := c, calls := s.calls.set i ⟨q, p⟩ }

/-- A worker ends. -/
def finish (s : Life) (crew worker : Nat) (how : Exit) : Life :=
  { s with consumer := s.consumer.setPool crew ((s.consumer.crew crew).pool.finish worker how) }

/-- So many milliseconds pass. -/
def pass (s : Life) (ms : Nat) : Life := { s with now := s.now + ms }

/-- What a move leads to, if it can happen. -/
def after (s : Life) : Move → Option Life
  | .begin q => some (s.accept q)
  | .advance i =>
    match s.calls[i]? with
    | some ⟨q, .on k⟩ =>
      if k.isReady s.now s.consumer then
        let r := k.step s.now s.consumer
        some (s.resume i q r.state r.progress)
      else none
    | _ => none
  | .answer i closed =>
    match s.calls[i]? with
    | some ⟨q, .on (.stopping .closing)⟩ =>
      some (s.resume i q s.consumer (.on (.stopping (.storing closed))))
    | _ => none
  | .finish crew worker how =>
    if s.consumer.isAtWork crew worker then some (s.finish crew worker how) else none
  | .wait ms => some (s.pass ms)

/-- What some moves lead to, one after the other. -/
def run (s : Life) (moves : List Move) : Option Life := moves.foldlM after s

/-- One life leads to another. -/
inductive Leads : Life → Life → Prop where
  | refl (s : Life) : Leads s s
  | step {s t u : Life} {m : Move} : Leads s t → t.after m = some u → Leads s u

/-- A life that can come about under some settings. -/
def Reachable (settings : ConsumerSettings) (s : Life) : Prop :=
  ∃ receiver, Leads (new settings receiver) s

end Life

end PeekLock.Consumer
