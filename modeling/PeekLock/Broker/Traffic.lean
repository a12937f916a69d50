import PeekLock.Broker.Receive
import PeekLock.Broker.Send
import PeekLock.Broker.Settle

/-!
# PeekLock.Broker.Traffic

Any number of calls of the in-memory bus at one time, in any order.

A traffic is the bus with every call that was ever begun on it.  A move
begins a call, lets one of them take its next step, drops a receive, or
lets time pass.  Which move comes next is left open, so what holds of
every traffic that can be reached holds of every order in which the calls
can take turns.

The table of locks has no order of its own.  A move may rearrange it, so
the locks of a receiver lapse in any order.

Two books are kept on the side, which no call reads: the `arrivals`, with
every copy that was ever made, and the `placements`, with every occasion
on which a copy was put into a queue.
-/

namespace PeekLock.Broker

/-! ## Calls -/

/-- A call of the bus on its way. -/
inductive Call where
  | sending (c : Send)
  | sendingBatch (c : SendBatch)
  | opening (c : Open)
  | receiving (c : Receive)
  | settling (c : Settle)
  | closing (c : Close)
  | subscribing (topic name : String)
  /-- Changes the faults that the bus shows. -/
  | arranging (faults : Faults)

/-- What a call has ended with. -/
inductive Outcome where
  | sent (result : Except BusError String)
  | sentBatch (result : Except BusError Unit)
  | opened (result : Except BusError Receiver)
  | received (result : Receive.Result)
  | settled (result : Except BusError Unit)
  | closed (result : Except BusError Unit)
  | subscribed
  | arranged
  | dropped

namespace Call

/-- Whether a call can go on. -/
def isReady (now : Nat) (b : Broker) : Call → Bool
  | .receiving c => c.isReady now b
  | _ => true

/-- One step of a call. -/
def step (now : Nat) (b : Broker) : Call → Step Broker Call Outcome
  | .sending c => (c.step now b).map .sending .sent
  | .sendingBatch c => (c.step now b).map .sendingBatch .sentBatch
  | .opening c => (c.step b).map .opening .opened
  | .receiving c => (c.step now b).map .receiving .received
  | .settling c => (c.step b).map .settling .settled
  | .closing c => (c.step b).map .closing .closed
  | .subscribing topic name =>
    { state := b.createSubscription topic name, progress := .done .subscribed }
  | .arranging faults => { state := { b with faults := faults }, progress := .done .arranged }

/-- The lock that a call has released and not recorded yet. -/
def held? : Call → Option Lock
  | .settling { point := .recording l, .. } => some l
  | _ => none

/-- Whether the next step of a call tells the calls that wait for messages to
look again. -/
def owesBroadcast : Call → Bool
  | .sending (.announcing ..) => true
  | .sendingBatch (.announcing ..) => true
  | .settling { point := .announcing, .. } => true
  | .closing { point := .announcing, .. } => true
  | _ => false

/-- Whether a call has marked a receiver as closed and not told so yet. -/
def isClosing (r : Receiver) : Call → Bool
  | .closing c => c.receiver.id = r.id && c.point ≠ .marking
  | _ => false

end Call

/-- What can be asked of the bus. -/
inductive Request where
  | send (target : String) (body : List UInt8) (options : SendOptions)
  | sendBatch (target : String) (bodies : List (List UInt8)) (options : SendOptions)
  | createReceiver (entity : String)
  | receive (r : Receiver) (most : Nat) (timeout : Duration)
  | settle (r : Receiver) (token : LockToken) (verdict : Verdict)
  | close (r : Receiver)
  | createSubscription (topic name : String)
  | setFaults (faults : Faults)

namespace Request

/-- The call that a request begins. -/
def call : Request → Call
  | .send target body options => .sending (.checking target body options)
  | .sendBatch target bodies options => .sendingBatch (.checking target bodies options)
  | .createReceiver entity => .opening (.checking entity)
  | .receive r most timeout => .receiving { receiver := r, most := most, timeout := timeout }
  | .settle r token verdict => .settling { receiver := r, token := token, verdict := verdict }
  | .close r => .closing { receiver := r }
  | .createSubscription topic name => .subscribing topic name
  | .setFaults faults => .arranging faults

/-- The receiver that a request is about. -/
def receiver? : Request → Option Receiver
  | .receive r _ _ => some r
  | .settle r _ _ => some r
  | .close r => some r
  | _ => none

end Request

/-! ## Copies on the move -/

/-- What one step does to the copies. -/
inductive Transfer where
  | nothing
  /-- A message arrives for a target. -/
  | arrival (target : String) (m : Message)
  /-- A receiver checks out copies. -/
  | take (r : Receiver) (most : Nat)
  /-- A lock is released, and its copy is in the hands of a call. -/
  | release (l : Lock)
  /-- A released copy is done with. -/
  | completion (l : Lock)
  /-- A released copy goes back to its queue. -/
  | restoration (l : Lock)
  /-- The locks of a receiver lapse. -/
  | lapse (r : Receiver)

/-- The copies that a message makes, each with its entity. -/
def copiesFor (m : Message) : Nat → List String → List (String × Copy)
  | _, [] => []
  | serial, entity :: rest => (entity, ⟨serial, m⟩) :: copiesFor m (serial + 1) rest

namespace Transfer

/-- The bus after a transfer. -/
def apply (b : Broker) : Transfer → Broker
  | .nothing => b
  | .arrival target m => b.enqueue target m
  | .take r most => (b.take r most).2
  | .release l => b.unlock l.token
  | .completion l => b.recordCompleted l
  | .restoration l => b.recordAbandoned l
  | .lapse r => b.lapse r

/-- The copies that a transfer makes, each with its entity. -/
def arrivals (b : Broker) : Transfer → List (String × Copy)
  | .arrival target m => copiesFor m b.copies (b.destinations target)
  | _ => []

/-- The copies that a transfer puts into queues, each with its entity. -/
def placements (b : Broker) : Transfer → List (String × Copy)
  | .arrival target m => copiesFor m b.copies (b.destinations target)
  | .restoration l => [(l.entity, l.copy)]
  | .lapse r => (b.locks.filter (·.receiver = r.id)).map fun l => (l.entity, l.copy)
  | _ => []

/-- The locks under which a transfer hands out copies, in the order of the batch. -/
def deliveries (b : Broker) : Transfer → List Lock
  | .take r most => lockAll b.supply r b.issued ((b.queue r.entity).take most)
  | _ => []

end Transfer

/-- What the next step of a call does to the copies. -/
def Call.transfer (b : Broker) : Call → Transfer
  | .sending (.enqueueing target m) => .arrival target m
  | .sendingBatch (.enqueueing target _ m _ _) => .arrival target m
  | .receiving { receiver := r, most := most, point := .looking _ _, .. } => .take r most
  | .settling { receiver := r, token := token, point := .releasing, .. } =>
    (b.lock? r token).elim .nothing .release
  | .settling { verdict := .complete, point := .recording l, .. } => .completion l
  | .settling { verdict := .abandon, point := .recording l, .. } => .restoration l
  | .closing { receiver := r, point := .lapsing } => .lapse r
  | _ => .nothing

/-- Only a receive that looks at its queue checks out copies. -/
theorem Call.looking_of_take {b : Broker} {c : Call} {r : Receiver} {most : Nat}
    (h : c.transfer b = .take r most) : ∃ timeout deadline seen,
      c = .receiving ⟨r, most, timeout, .looking deadline seen⟩ := by
  unfold Call.transfer at h
  split at h
  case h_3 r' most' timeout deadline seen =>
    injection h with hr hmost
    subst hr hmost
    exact ⟨timeout, deadline, seen, rfl⟩
  case h_4 r' token verdict =>
    cases hl : b.lock? r' token <;> rw [hl] at h <;> contradiction
  all_goals contradiction

/-! ## Traffic -/

/-- A call that was begun. -/
structure Entry where
  /-- When it was begun. -/
  began : Nat
  progress : Progress Call Outcome

/-- A copy that a call has put into the queue of an entity. -/
structure Placement where
  call : Nat
  entity : String
  copy : Copy
  deriving DecidableEq

/-- The bus with every call that was ever begun on it. -/
structure Traffic where
  /-- The time, in milliseconds. -/
  now : Nat := 0
  broker : Broker := {}
  /-- The calls, by number. -/
  calls : List Entry := []
  /-- Every copy that was ever made, the oldest first. -/
  arrivals : List Placement := []
  /-- Every occasion on which a copy was put into a queue, the latest first. -/
  placements : List Placement := []

/-- What can happen next. -/
inductive Move where
  | begin (q : Request)
  /-- The call of that number takes its next step. -/
  | advance (call : Nat)
  /-- The receive of that number is dropped.  (Any other call does nothing when it
is dropped: it is a call that takes no step any more.) -/
  | drop (call : Nat)
  | wait (ms : Nat)
  /-- The table of locks is rearranged. -/
  | rearrange (locks : List Lock)

namespace Entry

/-- The receiver that a call has created. -/
def created? : Entry → Option Receiver
  | ⟨_, .done (.opened (.ok r))⟩ => some r
  | _ => none

/-- The lock that is in the hands of a call. -/
def held? : Entry → Option Lock
  | ⟨_, .on c⟩ => c.held?
  | _ => none

end Entry

namespace Traffic

/-- The receivers that were created. -/
def receivers (s : Traffic) : List Receiver := s.calls.filterMap Entry.created?

/-- A call is begun. -/
def accept (s : Traffic) (q : Request) : Traffic :=
  { s with calls := s.calls ++ [⟨s.now, .on q.call⟩] }

/-- The call of that number takes its next step. -/
def advance (s : Traffic) (i began : Nat) (c : Call) : Traffic :=
  let r := c.step s.now s.broker
  let t := c.transfer s.broker
  { s with
    broker := r.state
    calls := s.calls.set i ⟨began, r.progress⟩
    arrivals := s.arrivals ++ (t.arrivals s.broker).map fun p => ⟨i, p.1, p.2⟩
    placements := (t.placements s.broker).map (fun p => ⟨i, p.1, p.2⟩) ++ s.placements }

/-- The receive of that number is dropped. -/
def dropReceive (s : Traffic) (i began : Nat) (c : Receive) : Traffic :=
  { s with broker := c.drop s.broker, calls := s.calls.set i ⟨began, .done .dropped⟩ }

/-- So many milliseconds pass. -/
def pass (s : Traffic) (ms : Nat) : Traffic := { s with now := s.now + ms }

/-- The table of locks is rearranged. -/
def rearrange (s : Traffic) (locks : List Lock) : Traffic :=
  { s with broker := { s.broker with locks := locks } }

/-- What a move leads to, if it can happen.  Requests are about receivers that
were created before. -/
def after (s : Traffic) : Move → Option Traffic
  | .begin q =>
    if q.receiver?.all (· ∈ s.receivers) then some (s.accept q) else none
  | .advance i =>
    match s.calls[i]? with
    | some ⟨began, .on c⟩ => if c.isReady s.now s.broker then some (s.advance i began c) else none
    | _ => none
  | .drop i =>
    match s.calls[i]? with
    | some ⟨began, .on (.receiving c)⟩ => some (s.dropReceive i began c)
    | _ => none
  | .wait ms => some (s.pass ms)
  | .rearrange locks => if locks.isPerm s.broker.locks then some (s.rearrange locks) else none

/-- What a move delivers. -/
def deliveries (s : Traffic) : Move → List Lock
  | .advance i =>
    match s.calls[i]? with
    | some ⟨_, .on c⟩ => (c.transfer s.broker).deliveries s.broker
    | _ => []
  | _ => []

/-- What some moves lead to, one after the other. -/
def run (s : Traffic) (moves : List Move) : Option Traffic := moves.foldlM after s

/-- One traffic leads to another. -/
inductive Leads : Traffic → Traffic → Prop where
  | refl (s : Traffic) : Leads s s
  | step {s t u : Traffic} {m : Move} : Leads s t → t.after m = some u → Leads s u

/-- A bus on which nothing has happened yet. -/
def start (supply : Identifier.Supply) : Traffic := { broker := { supply } }

/-- A traffic that can come about, wherever identifiers come from. -/
def Reachable (s : Traffic) : Prop := ∃ supply, Leads (start supply) s

end Traffic

end PeekLock.Broker
