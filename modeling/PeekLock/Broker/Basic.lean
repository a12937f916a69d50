import PeekLock.BusError
import PeekLock.Duration
import PeekLock.EntityPath
import PeekLock.Identifier
import PeekLock.Message
import PeekLock.Table

/-!
# PeekLock.Broker.Basic

The in-memory bus: its state, and the sections of its work that no other
call can interrupt.

A message that is sent lies in the queue of its entity as a *copy*; a
topic makes one copy for each of its subscriptions.  Receiving moves
copies from the front of a queue into the table of locks, under fresh
tokens.  From there a copy is either completed, or it goes back to the
front of its queue: because its receiver abandons it, or because its
receiver is closed and the lock lapses.

Every section below is atomic.  The calls that are made of them are in
`PeekLock.Broker.Receive` and its neighbours.  A section that makes
messages visible tells nobody; the call that it belongs to does so in a
step of its own (`broadcast`).
-/

namespace PeekLock

/-- A message as it lies in the bus. -/
structure Copy where
  /-- The number of the copy; no two copies share one. -/
  serial : Nat
  message : Message
  deriving DecidableEq, Inhabited

/-- The copy as it is handed out under a token. -/
def Copy.handOut (c : Copy) (token : LockToken) : Copy :=
  { c with message :=
      { c.message with lockToken := token, deliveryCount := c.message.deliveryCount + 1 } }

/-- A copy that is checked out. -/
structure Lock where
  token : LockToken
  /-- The receiver that may settle it. -/
  receiver : Nat
  /-- The entity that the copy came from. -/
  entity : String
  copy : Copy
  deriving DecidableEq, Inhabited

/-- Faults that the bus shows on purpose. -/
structure Faults where
  /-- Every receive fails so. -/
  receiveError : Option BusError := none
  /-- So many receives report a timeout without waiting. -/
  timeouts : Nat := 0
  /-- Every receive waits so long before it looks at its entity. -/
  latency : Option Duration := none
  /-- Every complete fails so; the message stays locked. -/
  completeError : Option BusError := none
  /-- Every abandon fails so; the message stays locked. -/
  abandonError : Option BusError := none
  /-- No receiver can be created for these entities. -/
  rejected : List String := []
  deriving DecidableEq, Inhabited

/-- The in-memory bus. -/
structure Broker where
  queues : Table String (List Copy) := .empty
  /-- The subscriptions of each topic, as entities. -/
  subscriptions : Table String (List String) := .empty
  locks : List Lock := []
  /-- The copies that were completed, in that order. -/
  completed : List Copy := []
  /-- The copies that were abandoned, in that order. -/
  abandoned : List Copy := []
  /-- The receivers that are closed, or about to be. -/
  closed : List Nat := []
  /-- How many receivers have been closed for good. -/
  closedReceivers : Nat := 0
  faults : Faults := {}
  nextReceiver : Nat := 0
  /-- How many receives have been begun on open receivers. -/
  receiveCalls : Nat := 0
  /-- How many of them are going on. -/
  activeReceives : Nat := 0
  /-- How many went on at most at one time. -/
  peakReceives : Nat := 0
  /-- How often the calls that wait for messages have been told to look again. -/
  broadcasts : Nat := 0
  /-- How many copies have been made. -/
  copies : Nat := 0
  /-- Where identifiers come from. -/
  supply : Identifier.Supply := Identifier.counting
  /-- How many identifiers have been generated. -/
  issued : Nat := 0
  deriving Inhabited

namespace Broker

/-- A receiver of the bus. -/
structure Receiver where
  id : Nat
  entity : String
  deriving DecidableEq, Repr, Inhabited

/-- The queue of an entity. -/
def queue (b : Broker) (entity : String) : List Copy := b.queues.getD entity []

/-- How many messages wait in an entity. -/
def messageCount (b : Broker) (entity : String) : Nat := (b.queue entity).length

/-- The ids of the completed messages. -/
def completedIds (b : Broker) : List String := b.completed.map (·.message.id)

/-- The ids of the abandoned messages. -/
def abandonedIds (b : Broker) : List String := b.abandoned.map (·.message.id)

/-- Whether a receiver can still be used. -/
def isOpen (b : Broker) (r : Receiver) : Bool := !b.closed.contains r.id

/-- Tells the calls that wait for messages to look again. -/
def broadcast (b : Broker) : Broker := { b with broadcasts := b.broadcasts + 1 }

/-- Makes sure that an entity has a queue. -/
def addEntity (b : Broker) (entity : String) : Broker :=
  { b with queues := b.queues.put entity (b.queue entity) }

/-- Registers a subscription; what is sent to its topic is copied into it from
then on. -/
def createSubscription (b : Broker) (topic name : String) : Broker :=
  let path := (EntityPath.subscription topic name).text
  let paths := b.subscriptions.getD topic []
  let paths := if paths.contains path then paths else paths ++ [path]
  { b with subscriptions := b.subscriptions.put topic paths }.addEntity path

/-! ## Sending -/

/-- The entities that a message for a target is copied into. -/
def destinations (b : Broker) (target : String) : List String :=
  match b.subscriptions.get? target with
  | some (path :: paths) => path :: paths
  | _ => [target]

/-- Puts a copy of a message at the end of a queue. -/
def append (m : Message) (b : Broker) (entity : String) : Broker :=
  { b with
    queues := b.queues.put entity (b.queue entity ++ [⟨b.copies, m⟩])
    copies := b.copies + 1 }

/-- A message arrives. -/
def enqueue (b : Broker) (target : String) (m : Message) : Broker :=
  (b.destinations target).foldl (append m) b

/-- The message with a body at that time, under the id that is given or a
generated one. -/
def buildMessage (b : Broker) (now : Nat) (body : List UInt8) (options : SendOptions) :
    Message × Broker :=
  let message (id : String) : Message :=
    { id := id
      body := body
      lockToken := ⟨""⟩
      contentType := options.contentType
      properties := options.properties
      enqueuedAt := .ofMillis now
      deliveryCount := 0 }
  match options.messageId with
  | some id => (message id, b)
  | none => (message (b.supply.nth b.issued), { b with issued := b.issued + 1 })

/-! ## Receiving and settling -/

/-- The locks for some copies, under tokens of a supply, from that one on. -/
def lockAll (supply : Identifier.Supply) (r : Receiver) (issued : Nat) : List Copy → List Lock
  | [] => []
  | c :: rest =>
    let token : LockToken := ⟨supply.nth issued⟩
    ⟨token, r.id, r.entity, c.handOut token⟩ :: lockAll supply r (issued + 1) rest

/-- Checks out copies from the front of a receiver's queue. -/
def take (b : Broker) (r : Receiver) (most : Nat) : List Message × Broker :=
  let locks := lockAll b.supply r b.issued ((b.queue r.entity).take most)
  (locks.map (·.copy.message),
    { b with
      queues := b.queues.put r.entity ((b.queue r.entity).drop most)
      locks := b.locks ++ locks
      issued := b.issued + locks.length })

/-- The lock that a receiver holds under a token. -/
def lock? (b : Broker) (r : Receiver) (token : LockToken) : Option Lock :=
  b.locks.find? fun l => l.token = token && l.receiver = r.id

/-- Drops the lock of a token. -/
def unlock (b : Broker) (token : LockToken) : Broker :=
  { b with locks := b.locks.filter (·.token ≠ token) }

/-- Puts a copy at the front of a queue. -/
def giveBack (b : Broker) (l : Lock) : Broker :=
  { b with queues := b.queues.put l.entity (l.copy :: b.queue l.entity) }

/-- A released copy is done with. -/
def recordCompleted (b : Broker) (l : Lock) : Broker :=
  { b with completed := b.completed ++ [l.copy] }

/-- A released copy becomes visible again. -/
def recordAbandoned (b : Broker) (l : Lock) : Broker :=
  { b with abandoned := b.abandoned ++ [l.copy] }.giveBack l

/-- The locks of a closed receiver lapse, and their messages become visible
again. -/
def lapse (b : Broker) (r : Receiver) : Broker :=
  let (owned, others) := b.locks.partition (·.receiver = r.id)
  let b := owned.foldl giveBack { b with locks := others }
  { b with closedReceivers := b.closedReceivers + 1 }

/-! ## Counting receives -/

/-- A receive begins. -/
def enterReceive (b : Broker) : Broker :=
  { b with
    receiveCalls := b.receiveCalls + 1
    activeReceives := b.activeReceives + 1
    peakReceives := max b.peakReceives (b.activeReceives + 1) }

/-- A receive is over. -/
def leaveReceive (b : Broker) : Broker := { b with activeReceives := b.activeReceives - 1 }

end Broker

end PeekLock
