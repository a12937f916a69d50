import PeekLock.Remote.Lanes

/-!
# PeekLock.Remote.Send

Sending to the remote bus, and creating its receivers.

Every send creates a sender of its own, under the gate of the connection,
and disposes it afterwards; a failure to dispose is only logged.  A single
message and a batch of one travel the same way.
-/

namespace PeekLock.Remote

/-! ## Messages -/

/-- The records of building some messages with the same options. -/
def buildingLogs (count : Nat) (options : SendOptions) : List LogRecord :=
  (List.replicate count (Amqp.sendingLogs options.properties)).flatten

/-- How a send ends well. -/
inductive Receipt where
  /-- One message, under that id. -/
  | one (id : String)
  /-- A batch of so many messages. -/
  | batch (count : Nat)
  deriving DecidableEq, Repr

/-- The record of a send. -/
def Receipt.log (target : String) : Receipt → LogRecord
  | .one id => .remote .debug s!"Sent message {id} to {target}"
  | .batch count => .remote .debug s!"Sent batch of {count} messages to {target}"

/-- A send on its way. -/
inductive Send where
  | buildingOne (target : String) (body : List UInt8) (options : SendOptions)
  | buildingBatch (target : String) (bodies : List (List UInt8)) (options : SendOptions)
  /-- Waiting for the connection, to create a sender. -/
  | creating (target : String) (messages : List Outgoing) (receipt : Receipt) (ticket : Nat)
  | sending (target : String) (messages : List Outgoing) (receipt : Receipt)
  | disposing (target : String) (result : Except BusError Receipt)

namespace Send

/-- The result of a send. -/
abbrev Result := Except BusError Receipt

/-- Whether a send can go on. -/
def isReady (s : Client) : Send → Bool
  | .creating _ _ _ ticket => s.admits .connection ticket
  | _ => true

/-- Queues up for the connection. -/
def create (s : Client) (target : String) (messages : List Outgoing) (receipt : Receipt)
    (logs : List LogRecord) : Step Client Send Result :=
  let (ticket, s) := s.draw .connection .sole
  { state := s, logs := logs, progress := .on (.creating target messages receipt ticket) }

/-- The request that carries some messages. -/
def request (target : String) (messages : List Outgoing) : Request :=
  if messages.length = 1 then .sendMessage target else .sendMessages target messages.length

/-- One step of a send. -/
def step (s : Client) : Send → Step Client Send Result
  | .buildingOne target body options =>
    match Outgoing.build s.supply s.issued body options with
    | .error e => { state := s, progress := .done (.error e) }
    | .ok (m, issued) =>
      create { s with issued := issued } target [m] (.one m.id) (buildingLogs 1 options)
  | .buildingBatch target bodies options =>
    match Outgoing.buildBatch s.supply s.issued bodies options with
    | .error e => { state := s, progress := .done (.error e) }
    | .ok ([], issued) =>
      { state := { s with issued := issued }, progress := .done (.ok (.batch 0)) }
    | .ok (messages, issued) =>
      create { s with issued := issued } target messages (.batch messages.length)
        (buildingLogs messages.length options)
  | .creating target messages receipt ticket =>
    match s.ask (.createSender target) with
    | (some problem, s) =>
      { state := s.leave .connection ticket
        progress := .done (.error
          (.producerCreationFailed s!"Failed to create sender for {target}: {problem}")) }
    | (none, s) =>
      { state := s.leave .connection ticket
        progress := .on (.sending target messages receipt) }
  | .sending target messages receipt =>
    match s.ask (request target messages) with
    | (some problem, s) =>
      { state := s, progress := .on (.disposing target (.error (.sendFailed problem))) }
    | (none, s) =>
      { state := { s with network := { s.network with sent := s.network.sent ++ messages } }
        progress := .on (.disposing target (.ok receipt)) }
  | .disposing target result =>
    let (problem, s) := s.ask (.disposeSender target)
    let warning := problem.elim [] fun e =>
      [.remote .warn s!"Failed to dispose sender for {target}: {e}"]
    let success := match result with
      | .ok receipt => [receipt.log target]
      | .error _ => []
    { state := s, logs := warning ++ success, progress := .done result }

end Send

/-! ## Receivers -/

/-- The error of a link that cannot be opened. -/
def openFailed (entity : EntityPath) (problem : String) : BusError :=
  .consumerCreationFailed s!"Failed to create receiver for {entity.text}: {problem}"

/-- The answer when a link was asked for: its number, unless that failed. -/
def linked (s : Client) (entity : EntityPath) : Option String → Except BusError Nat × Client
  | some problem => (.error (openFailed entity problem), s)
  | none =>
    let (link, network) := s.network.addLink entity
    (.ok link, { s with network := network })

/-- The creation of a receiver on its way. -/
inductive Open where
  | checking (entity : String)
  /-- Waiting for the connection, to open the first link. -/
  | opening (entity : EntityPath) (ticket : Nat)
  /-- Holding the connection while the link is opened; how that will fail, if it does. -/
  | linking (entity : EntityPath) (ticket : Nat) (problem : Option String)

namespace Open

/-- Whether the creation of a receiver can go on. -/
def isReady (s : Client) : Open → Bool
  | .opening _ ticket => s.admits .connection ticket
  | _ => true

/-- One step of the creation of a receiver; the result is its number. -/
def step (s : Client) : Open → Step Client Open (Except BusError Nat)
  | .checking entity =>
    match EntityPath.parse entity with
    | .error e => { state := s, progress := .done (.error e) }
    | .ok path =>
      let (ticket, s) := s.draw .connection .sole
      { state := s, progress := .on (.opening path ticket) }
  | .opening path ticket =>
    let (problem, s) := s.ask (.openLink path)
    { state := s, progress := .on (.linking path ticket problem) }
  | .linking path ticket problem =>
    match linked s path problem with
    | (.error e, s) => { state := s.leave .connection ticket, progress := .done (.error e) }
    | (.ok link, s) =>
      let set : LaneSet :=
        { entity := path, lanes := [{ number := 0, link := some link }], listed := [0] }
      { state := { s.leave .connection ticket with receivers := s.receivers ++ [set] }
        logs := [.remote .debug s!"Created receiver for {path.text}"]
        progress := .done (.ok s.receivers.length) }

end Open

end PeekLock.Remote
