import PeekLock.Broker.Basic
import PeekLock.Progress

/-!
# PeekLock.Broker.Send

Sending to the in-memory bus, and creating its receivers.

Messages go to queues and topics only.  A message arrives in one step, and
the calls that wait for messages are told in the next.  A batch arrives
message by message; other calls may come in between.
-/

namespace PeekLock.Broker

/-- Nothing, if messages can be sent to the target. -/
def checkTarget (target : String) : Except BusError Unit :=
  match EntityPath.parse target with
  | .error e => .error e
  | .ok (.queue _) => .ok ()
  | .ok (.subscription _ _) =>
    .error (.invalidQueueName s!"cannot send to a subscription: {target}")

/-! ## One message -/

/-- A send on its way. -/
inductive Send where
  | checking (target : String) (body : List UInt8) (options : SendOptions)
  | enqueueing (target : String) (message : Message)
  /-- About to tell that the message with that id has arrived. -/
  | announcing (target id : String)

/-- The record of a message that was sent. -/
def Send.log (target id : String) : LogRecord :=
  .memory .debug s!"Enqueued message {id} on {target}"

/-- One step of a send; its result is the id of the message. -/
def Send.step (now : Nat) (b : Broker) : Send → Step Broker Send (Except BusError String)
  | .checking target body options =>
    match checkTarget target with
    | .error e => { state := b, progress := .done (.error e) }
    | .ok () =>
      let (m, b) := b.buildMessage now body options
      { state := b, progress := .on (.enqueueing target m) }
  | .enqueueing target m =>
    { state := b.enqueue target m, progress := .on (.announcing target m.id) }
  | .announcing target id =>
    { state := b.broadcast, logs := [Send.log target id], progress := .done (.ok id) }

/-! ## A batch -/

/-- The send of a batch on its way. -/
inductive SendBatch where
  | checking (target : String) (bodies : List (List UInt8)) (options : SendOptions)
  /-- With the next message of so many in all, and the bodies after it. -/
  | enqueueing (target : String) (count : Nat) (next : Message) (rest : List (List UInt8))
      (options : SendOptions)
  /-- About to tell that a message has arrived. -/
  | announcing (target : String) (count : Nat) (rest : List (List UInt8)) (options : SendOptions)

/-- The record of a batch that was sent. -/
def SendBatch.log (target : String) (count : Nat) : LogRecord :=
  .memory .debug s!"Enqueued batch of {count} messages on {target}"

/-- The options of the messages after the first one; a shared id would collide. -/
def SendBatch.later (options : SendOptions) : SendOptions := { options with messageId := none }

/-- Goes on with the bodies that are left. -/
def SendBatch.goOn (now : Nat) (b : Broker) (target : String) (count : Nat)
    (options : SendOptions) :
    List (List UInt8) → Step Broker SendBatch (Except BusError Unit)
  | [] => { state := b, logs := [SendBatch.log target count], progress := .done (.ok ()) }
  | body :: rest =>
    let (m, b) := b.buildMessage now body options
    { state := b, progress := .on (.enqueueing target count m rest (later options)) }

/-- One step of the send of a batch. -/
def SendBatch.step (now : Nat) (b : Broker) :
    SendBatch → Step Broker SendBatch (Except BusError Unit)
  | .checking target bodies options =>
    match checkTarget target with
    | .error e => { state := b, progress := .done (.error e) }
    | .ok () => SendBatch.goOn now b target bodies.length options bodies
  | .enqueueing target count m rest options =>
    { state := b.enqueue target m, progress := .on (.announcing target count rest options) }
  | .announcing target count rest options =>
    SendBatch.goOn now b.broadcast target count options rest

/-! ## Receivers -/

/-- The creation of a receiver on its way. -/
inductive Open where
  | checking (entity : String)
  | registering (path : String)
  deriving DecidableEq, Repr

/-- The error of an entity that takes no receivers. -/
def Open.rejection (path : String) : BusError :=
  .consumerCreationFailed s!"entity {path} rejected receiver creation"

/-- One step of the creation of a receiver. -/
def Open.step (b : Broker) : Open → Step Broker Open (Except BusError Receiver)
  | .checking entity =>
    match EntityPath.parse entity with
    | .error e => { state := b, progress := .done (.error e) }
    | .ok path =>
      if b.faults.rejected.contains path.text then
        { state := b, progress := .done (.error (Open.rejection path.text)) }
      else { state := b, progress := .on (.registering path.text) }
  | .registering path =>
    { state := { b.addEntity path with nextReceiver := b.nextReceiver + 1 }
      progress := .done (.ok ⟨b.nextReceiver, path⟩) }

end PeekLock.Broker
