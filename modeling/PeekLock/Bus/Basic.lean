import PeekLock.Broker.Receive
import PeekLock.Broker.Send
import PeekLock.Broker.Settle
import PeekLock.Remote.Connect
import PeekLock.Remote.Receive
import PeekLock.Remote.Settle

/-!
# PeekLock.Bus.Basic

One interface to the in-memory and the remote bus.

A `Receiver` belongs to either of them.  It can be given a script that
makes some of its receives fail before they reach the bus, and an error
that every close ends with; a receiver without a script is the receiver of
the bus itself.
-/

namespace PeekLock

/-- Which bus a client talks to. -/
inductive Medium where
  | memory
  | remote
  deriving DecidableEq, Repr, Inhabited

/-- The receiver of one bus that stands behind a receiver. -/
inductive Source where
  | memory (r : Broker.Receiver)
  | remote (r : Nat)
  deriving DecidableEq, Repr, Inhabited

/-- A receiver with its script. -/
structure Receiver where
  source : Source
  /-- What the next receives do: fail so, or what they would do anyway. -/
  script : List (Option BusError) := []
  /-- What every close ends with, after it has closed the source. -/
  closeError : Option BusError := none
  deriving Inhabited

/-- Both buses, with the receivers that were created on them. -/
structure Bus where
  broker : Broker := {}
  remote : Remote.Client := {}
  receivers : List Receiver := []
  deriving Inhabited

namespace Bus

/-- The receiver of that number. -/
def receiver (b : Bus) (r : Nat) : Receiver := b.receivers.getD r default

/-- Adds a receiver; its number comes with it. -/
def addReceiver (b : Bus) (r : Receiver) : Nat × Bus :=
  (b.receivers.length, { b with receivers := b.receivers ++ [r] })

/-- Takes the next entry of a receiver's script. -/
def nextOfScript (b : Bus) (r : Nat) : Option BusError × Bus :=
  let receiver := b.receiver r
  match receiver.script with
  | [] => (none, b)
  | entry :: rest =>
    (entry, { b with receivers := b.receivers.set r { receiver with script := rest } })

/-- A step of the in-memory bus, seen from outside. -/
def liftMemory {κ κ' α α' : Type} (b : Bus) (point : κ → κ') (result : α → α')
    (s : Step Broker κ α) : Step Bus κ' α' :=
  { state := { b with broker := s.state }, logs := s.logs, progress := s.progress.map point result }

/-- A step of the remote bus, seen from outside. -/
def liftRemote {κ κ' α α' : Type} (b : Bus) (point : κ → κ') (result : α → α')
    (s : Step Remote.Client κ α) : Step Bus κ' α' :=
  { state := { b with remote := s.state }, logs := s.logs, progress := s.progress.map point result }

/-! ## Receiving -/

/-- A receive on its way. -/
inductive Receive where
  /-- About to consult the script. -/
  | knocking (receiver most : Nat) (timeout : Duration)
  | memory (c : Broker.Receive)
  | remote (c : Remote.Receive)
  deriving DecidableEq, Repr

namespace Receive

/-- Whether a receive can go on. -/
def isReady (now : Nat) (b : Bus) : Receive → Bool
  | .knocking .. => true
  | .memory c => c.isReady now b.broker
  | .remote c => c.isReady now b.remote

/-- When a receive goes on by itself. -/
def deadline? : Receive → Option Nat
  | .knocking .. => none
  | .memory c => c.deadline?
  | .remote c => c.deadline?

/-- The receive of a source. -/
def ofSource (most : Nat) (timeout : Duration) : Source → Receive
  | .memory r => .memory { receiver := r, most := most, timeout := timeout }
  | .remote r => .remote { receiver := r, most := most, timeout := timeout }

/-- One step of a receive. -/
def step (now : Nat) (b : Bus) : Receive → Step Bus Receive (Except BusError (List Message))
  | .knocking r most timeout =>
    match b.nextOfScript r with
    | (some e, b) => { state := b, progress := .done (.error e) }
    | (none, b) => { state := b, progress := .on (ofSource most timeout (b.receiver r).source) }
  | .memory c => b.liftMemory .memory id (c.step now b.broker)
  | .remote c => b.liftRemote .remote id (c.step now b.remote)

/-- Drops a receive. -/
def drop (b : Bus) : Receive → Bus
  | .knocking .. => b
  | .memory c => { b with broker := c.drop b.broker }
  | .remote c => { b with remote := c.drop b.remote }

end Receive

/-! ## Settling -/

/-- A settlement on its way. -/
inductive Settle where
  | memory (c : Broker.Settle)
  | remote (c : Remote.Settle)

namespace Settle

/-- The settlement of a message by a receiver. -/
def start (b : Bus) (r : Nat) (token : LockToken) (verdict : Verdict) : Settle :=
  match (b.receiver r).source with
  | .memory r => .memory { receiver := r, token := token, verdict := verdict }
  | .remote r => .remote { receiver := r, token := token, verdict := verdict }

/-- Whether a settlement can go on. -/
def isReady (b : Bus) : Settle → Bool
  | .memory _ => true
  | .remote c => c.isReady b.remote

/-- One step of a settlement. -/
def step (b : Bus) : Settle → Step Bus Settle (Except BusError Unit)
  | .memory c => b.liftMemory .memory id (c.step b.broker)
  | .remote c => b.liftRemote .remote id (c.step b.remote)

end Settle

/-! ## Closing -/

/-- A close of a source on its way. -/
inductive Close.Call where
  | memory (c : Broker.Close)
  | remote (c : Remote.Close)

/-- A close on its way, with the error that it ends with. -/
structure Close where
  call : Close.Call
  error : Option BusError

namespace Close

/-- The close of a receiver. -/
def start (b : Bus) (r : Nat) : Close :=
  let receiver := b.receiver r
  { call := match receiver.source with
      | .memory r => .memory { receiver := r }
      | .remote r => .remote { receiver := r }
    error := receiver.closeError }

/-- Whether a close can go on. -/
def isReady (b : Bus) (c : Close) : Bool :=
  match c.call with
  | .memory _ => true
  | .remote c => c.isReady b.remote

/-- The result of a close, which may be an error from the script. -/
def outcome (c : Close) (result : Except BusError Unit) : Except BusError Unit :=
  c.error.elim result .error

/-- One step of a close. -/
def step (b : Bus) (c : Close) : Step Bus Close (Except BusError Unit) :=
  match c.call with
  | .memory call =>
    b.liftMemory (fun k => { c with call := .memory k }) c.outcome (call.step b.broker)
  | .remote call =>
    b.liftRemote (fun k => { c with call := .remote k }) c.outcome (call.step b.remote)

end Close

/-! ## Sending -/

/-- A send on its way. -/
inductive Send where
  | memoryOne (c : Broker.Send)
  | memoryBatch (c : Broker.SendBatch)
  | remote (c : Remote.Send)

namespace Send

/-- The send of one message. -/
def one (medium : Medium) (target : String) (body : List UInt8) (options : SendOptions) : Send :=
  match medium with
  | .memory => .memoryOne (.checking target body options)
  | .remote => .remote (.buildingOne target body options)

/-- The send of a batch. -/
def batch (medium : Medium) (target : String) (bodies : List (List UInt8)) (options : SendOptions) :
    Send :=
  match medium with
  | .memory => .memoryBatch (.checking target bodies options)
  | .remote => .remote (.buildingBatch target bodies options)

/-- The result of a send: the id of the message, or nothing for a batch. -/
abbrev Result := Except BusError (Option String)

/-- The id on a receipt. -/
def idOf : Remote.Receipt → Option String
  | .one id => some id
  | .batch _ => none

/-- Whether a send can go on. -/
def isReady (b : Bus) : Send → Bool
  | .remote c => c.isReady b.remote
  | _ => true

/-- One step of a send. -/
def step (now : Nat) (b : Bus) : Send → Step Bus Send Result
  | .memoryOne c => b.liftMemory .memoryOne (·.map some) (c.step now b.broker)
  | .memoryBatch c => b.liftMemory .memoryBatch (·.map fun _ => none) (c.step now b.broker)
  | .remote c => b.liftRemote .remote (·.map idOf) (c.step b.remote)

end Send

/-! ## Creating receivers -/

/-- The creation of a receiver on its way. -/
inductive Open where
  | memory (c : Broker.Open)
  | remote (c : Remote.Open)

namespace Open

/-- The creation of a receiver for an entity. -/
def start (medium : Medium) (entity : String) : Open :=
  match medium with
  | .memory => .memory (.checking entity)
  | .remote => .remote (.checking entity)

/-- Whether the creation of a receiver can go on. -/
def isReady (b : Bus) : Open → Bool
  | .memory _ => true
  | .remote c => c.isReady b.remote

/-- One step of the creation of a receiver. -/
def step (b : Bus) : Open → Step Bus Open (Except BusError Source)
  | .memory c => b.liftMemory .memory (·.map Source.memory) (c.step b.broker)
  | .remote c => b.liftRemote .remote (·.map Source.remote) (c.step b.remote)

end Open

end Bus

end PeekLock
