import PeekLock.Broker.Traffic
import PeekLock.Consumer.Life
import PeekLock.Consumer.Worker

/-!
# PeekLock.Consumer.Workshop

A consumer at work on the in-memory bus.

A workshop puts three things together: a consumer with its starts and
stops, the bus with the calls on it, and one post for each worker that was
started.  The worker at a post makes its calls on the bus, one at a time,
and goes on when they are answered; from outside come messages, faults of
receives, and the cancellation of tokens.  A move lets one of all these
take its next step, and which one comes next is left open.  A handler
returns when it likes and what it likes.

The receiver belongs to the consumer: only its workers receive from it and
settle, and only a stop of the consumer closes it.

Three books are kept on the side, which nobody reads: what was delivered,
what the handler has returned, and which settlements were called for.
-/

namespace PeekLock

/-! ## Posts -/

/-- What a worker waits for, but for its handler. -/
inductive Errand where
  | none
  /-- The receive of that number. -/
  | receiving (call : Nat)
  /-- The settlement of that number. -/
  | settling (call : Nat)
  /-- The end of a pause. -/
  | pausing (due : Nat)
  deriving DecidableEq

/-- A worker at work. -/
structure Post where
  crew : Nat
  worker : Worker
  stage : Worker.Stage := .starting
  errand : Errand := .none

/-- The workers of a crew that was just hired by a call of that number. -/
def Consumer.Life.hired (s : Consumer.Life) (call : Nat) : List Post :=
  match s.calls[call]? with
  | some ⟨_, .done (.started (.ok crew))⟩ =>
    (s.consumer.crew crew).pool.handles.map fun n =>
      ⟨crew, ⟨n, s.consumer.settings⟩, .starting, .none⟩
  | _ => []

/-! ## What comes from outside -/

/-- Whether faults leave settlements alone. -/
def Faults.spareSettlements (f : Faults) : Bool := f.completeError.isNone && f.abandonError.isNone

/-- Whether a request can come from outside. -/
def Broker.Request.isOutside : Broker.Request → Bool
  | .receive .. => false
  | .settle .. => false
  | .close _ => false
  | .setFaults faults => faults.spareSettlements
  | _ => true

/-- Whether a call is one of those that come from outside. -/
def Broker.Call.isOutside : Broker.Call → Bool
  | .receiving _ => false
  | .settling _ => false
  | .closing _ => false
  | .arranging faults => faults.spareSettlements
  | _ => true

/-- Whether a call goes on without a worker. -/
def Broker.Call.isUnattended : Broker.Call → Bool
  | .receiving _ => false
  | .settling _ => false
  | _ => true

/-- What a worker that waits for a call is told when the call is over. -/
def Broker.Entry.event? : Broker.Entry → Option Worker.Event
  | ⟨_, .done (.received result)⟩ => some (.received result)
  | ⟨_, .done (.settled result)⟩ => some (.settled result)
  | _ => none

/-! ## Workshops -/

/-- A consumer at work on the in-memory bus. -/
structure Workshop where
  /-- The receiver of the consumer. -/
  receiver : Broker.Receiver
  traffic : Broker.Traffic
  life : Consumer.Life
  /-- The names of the tokens that are cancelled. -/
  cancelled : List String := []
  /-- The workers, in the order in which they were started. -/
  posts : List Post := []
  /-- The close of the receiver, by number, once a stop has called it. -/
  closing : Option Nat := none
  /-- What was delivered, under which locks, the oldest first. -/
  deliveries : List Lock := []
  /-- What the handler has returned for which message, the oldest first. -/
  returns : List (Message × Except String Unit) := []
  /-- The settlements that were called for, the oldest first. -/
  settlements : List (LockToken × Verdict) := []

namespace Workshop

/-- What can happen next. -/
inductive Move where
  /-- Something is asked of the bus from outside. -/
  | ask (q : Broker.Request)
  /-- A call that no worker waits for takes its next step. -/
  | carry (call : Nat)
  /-- The table of locks is rearranged. -/
  | rearrange (locks : List Lock)
  | wait (ms : Nat)
  | cancel (token : String)
  /-- The consumer is asked to start or to stop. -/
  | request (q : Consumer.Request)
  /-- A start or stop takes its next step. -/
  | proceed (call : Nat)
  /-- A stop calls the close of the receiver. -/
  | close (stop : Nat)
  /-- The close returns to the stop. -/
  | answer (stop : Nat)
  /-- A worker goes on, by itself or with the call that it waits for. -/
  | work (post : Nat)
  /-- A worker drops its receive, since the caller's token is cancelled. -/
  | interrupt (post : Nat)
  /-- The handler returns to a worker. -/
  | handle (post : Nat) (result : Except String Unit)

/-- Whether a move needs neither the handler nor anybody outside. -/
def Move.isInternal : Move → Bool
  | .ask _ => false
  | .handle _ _ => false
  | _ => true

/-- Whether the caller's token is cancelled for a worker. -/
def callerCancelled (s : Workshop) (p : Post) : Bool :=
  s.cancelled.contains (s.life.consumer.crew p.crew).caller

/-- Whether the scope of a worker is cancelled. -/
def scopeCancelled (s : Workshop) (p : Post) : Bool :=
  (s.life.consumer.crew p.crew).pool.stopped || s.callerCancelled p

/-- A worker comes to a stage and makes the call that belongs to it. -/
def enter (s : Workshop) (k : Nat) (p : Post) (stage : Worker.Stage) : Workshop :=
  let wait (errand : Errand) (s : Workshop) : Workshop :=
    { s with posts := s.posts.set k { p with stage := stage, errand := errand } }
  match p.worker.call? stage, stage with
  | some (.receive most timeout), _ =>
    wait (.receiving s.traffic.calls.length)
      { s with traffic := s.traffic.accept (.receive s.receiver most timeout) }
  | some (.settle token verdict), _ =>
    wait (.settling s.traffic.calls.length)
      { s with
        traffic := s.traffic.accept (.settle s.receiver token verdict)
        settlements := s.settlements ++ [(token, verdict)] }
  | some (.handle _), _ => wait .none s
  | none, .backingOff => wait (.pausing (s.traffic.now + p.worker.settings.errorBackoff.ticks)) s
  | none, .ended how =>
    wait .none { s with life := s.life.finish p.crew p.worker.number how }
  | none, _ => wait .none s

/-- A worker is told what has happened. -/
def tell (s : Workshop) (k : Nat) (p : Post) (e : Worker.Event) : Workshop :=
  s.enter k p (p.worker.react p.stage e).1

/-- The call that a worker waits for takes its next step. -/
def attend (s : Workshop) (k : Nat) (p : Post) (call : Nat) : Option Workshop :=
  (s.traffic.after (.advance call)).map fun traffic =>
    let s := { s with
      traffic := traffic
      deliveries := s.deliveries ++ s.traffic.deliveries (.advance call) }
    match traffic.calls[call]?.bind Broker.Entry.event? with
    | some e => s.tell k p e
    | none => s

/-- A worker goes on, if it can. -/
def work (s : Workshop) (k : Nat) (p : Post) : Option Workshop :=
  match p.stage, p.errand with
  | .starting, _ => some (s.tell k p .started)
  | .deciding, _ => some (s.tell k p (.looked (s.callerCancelled p) (s.scopeCancelled p)))
  | .receiving, .receiving call => s.attend k p call
  | .settling .., .settling call => s.attend k p call
  | .backingOff, .pausing due =>
    if due ≤ s.traffic.now || s.scopeCancelled p then some (s.tell k p .rested) else none
  | _, _ => none

/-- A worker drops its receive, if it has one and the caller's token is cancelled. -/
def interrupt (s : Workshop) (k : Nat) (p : Post) : Option Workshop :=
  match p.stage, p.errand with
  | .receiving, .receiving call =>
    if s.callerCancelled p then
      (s.traffic.after (.drop call)).map fun traffic =>
        { s with traffic := traffic }.tell k p (.received (.error Worker.interrupted))
    else none
  | _, _ => none

/-- The handler returns to a worker, if it was called. -/
def handle (s : Workshop) (k : Nat) (p : Post) (result : Except String Unit) : Option Workshop :=
  match p.stage with
  | .handling m _ =>
    some ({ s with returns := s.returns ++ [(m, result)] }.tell k p (.handled result))
  | _ => none

/-- Whether the next step of a call of that number needs no worker. -/
def isUnattended (s : Workshop) (call : Nat) : Bool :=
  match s.traffic.calls[call]? with
  | some ⟨_, .on c⟩ => c.isUnattended
  | _ => false

/-- A stop calls the close of the receiver, if it has come to it. -/
def close (s : Workshop) (stop : Nat) : Option Workshop :=
  match s.life.calls[stop]?, s.closing with
  | some ⟨_, .on (.stopping .closing)⟩, none =>
    some { s with
      traffic := s.traffic.accept (.close s.receiver)
      closing := some s.traffic.calls.length }
  | _, _ => none

/-- The close returns to a stop, if it is over. -/
def answer (s : Workshop) (stop : Nat) : Option Workshop :=
  match s.closing.bind fun call => s.traffic.calls[call]? with
  | some ⟨_, .done (.closed result)⟩ =>
    (s.life.after (.answer stop result)).map fun life => { s with life := life }
  | _ => none

/-- What a move leads to, if it can happen. -/
def after (s : Workshop) : Move → Option Workshop
  | .ask q =>
    if q.isOutside then some { s with traffic := s.traffic.accept q } else none
  | .carry i =>
    if s.isUnattended i then
      (s.traffic.after (.advance i)).map fun traffic => { s with traffic := traffic }
    else none
  | .rearrange locks =>
    (s.traffic.after (.rearrange locks)).map fun traffic => { s with traffic := traffic }
  | .wait ms => some { s with traffic := s.traffic.pass ms, life := s.life.pass ms }
  | .cancel token => some { s with cancelled := token :: s.cancelled }
  | .request q => some { s with life := s.life.accept q }
  | .proceed i =>
    (s.life.after (.advance i)).map fun life =>
      { s with life := life, posts := s.posts ++ life.hired i }
  | .close i => s.close i
  | .answer i => s.answer i
  | .work k => s.posts[k]?.bind fun p => s.work k p
  | .interrupt k => s.posts[k]?.bind fun p => s.interrupt k p
  | .handle k result => s.posts[k]?.bind fun p => s.handle k p result

/-- What some moves lead to, one after the other. -/
def run (s : Workshop) (moves : List Move) : Option Workshop := moves.foldlM after s

/-- One workshop leads to another. -/
inductive Leads : Workshop → Workshop → Prop where
  | refl (s : Workshop) : Leads s s
  | step {s t u : Workshop} {m : Move} : Leads s t → t.after m = some u → Leads s u

/-- A consumer was just built, on a bus where nobody has received anything. -/
structure Opens (settings : ConsumerSettings) (s : Workshop) : Prop where
  traffic : s.traffic.Reachable
  receiver : s.receiver ∈ s.traffic.receivers
  isOpen : s.traffic.broker.isOpen s.receiver = true
  faults : s.traffic.broker.faults.spareSettlements = true
  locks : s.traffic.broker.locks = []
  completed : s.traffic.broker.completed = []
  abandoned : s.traffic.broker.abandoned = []
  outside : ∀ (i began : Nat) (c : Broker.Call),
    s.traffic.calls[i]? = some ⟨began, .on c⟩ → c.isOutside = true
  life : ∃ receiver, s.life = (Consumer.Life.new settings receiver).pass s.traffic.now
  posts : s.posts = []
  closing : s.closing = none
  deliveries : s.deliveries = []
  returns : s.returns = []
  settlements : s.settlements = []

/-- A workshop that can come about under some settings. -/
def Reachable (settings : ConsumerSettings) (s : Workshop) : Prop :=
  ∃ first : Workshop, first.Opens settings ∧ first.Leads s

end Workshop

end PeekLock
