import PeekLock.Amqp
import PeekLock.Duration
import PeekLock.EntityPath
import PeekLock.Remote.LockName
import PeekLock.Remote.Outgoing
import PeekLock.Table

/-!
# PeekLock.Remote.Network

What lies on the other side of a connection to the remote bus, as far as
this library can tell: a partner that takes requests and answers them.

Every request is noted before it is answered.  Requests succeed unless a
failure has been arranged for the next request of that kind.  Messages
that were pushed to an entity wait there until a link takes them.
-/

namespace PeekLock.Remote

/-- A message as the remote bus delivers it. -/
structure Incoming where
  id : Option String
  /-- The body, or why it cannot be read. -/
  body : Except String (List UInt8)
  contentType : Option String
  properties : Option Amqp.Properties
  enqueuedAt : Timestamp
  deliveryCount : Option Nat

instance : Inhabited Incoming := ⟨⟨none, .ok [], none, none, ⟨0⟩, none⟩⟩

/-- The id of a message that came without one. -/
def unknownId : String := "unknown"

/-- The message as it is handed out under a token. -/
def Incoming.message (m : Incoming) (token : LockToken) : Message :=
  { id := m.id.getD unknownId
    body := match m.body with
      | .ok bytes => bytes
      | .error _ => []
    lockToken := token
    contentType := m.contentType
    properties := m.properties.elim [] Amqp.toProperties
    enqueuedAt := m.enqueuedAt
    deliveryCount := m.deliveryCount.getD 1 }

/-- The records of handing a message out. -/
def Incoming.logs (print : Amqp.Value → String) (m : Incoming) : List LogRecord :=
  let unreadable := match m.body with
    | .ok _ => []
    | .error e =>
      [.remote .warn s!"Message {m.id.getD unknownId} has no readable body: {e}"]
  unreadable ++ m.properties.elim [] (Amqp.receivingLogs print)

/-- What is asked of the remote bus.  Links are numbered in the order in which
they are opened. -/
inductive Request where
  | connect (address : String)
  | createSender (entity : String)
  | sendMessage (entity : String)
  | sendMessages (entity : String) (count : Nat)
  | disposeSender (entity : String)
  | openLink (entity : EntityPath)
  | receive (link most : Nat) (wait : Duration)
  | complete (link : Nat) (id : Option String)
  | abandon (link : Nat) (id : Option String)
  | disposeLink (link : Nat)
  deriving DecidableEq, Repr

/-- The name of a kind of request. -/
def Request.kind : Request → String
  | .connect _ => "connect"
  | .createSender _ => "create_sender"
  | .sendMessage _ => "send_message"
  | .sendMessages .. => "send_messages"
  | .disposeSender _ => "dispose_sender"
  | .openLink (.queue _) => "create_receiver_for_queue"
  | .openLink (.subscription ..) => "create_receiver_for_subscription"
  | .receive .. => "receive"
  | .complete .. => "complete"
  | .abandon .. => "abandon"
  | .disposeLink _ => "dispose_receiver"

/-- The name of an entity on the other side. -/
def sourceName : EntityPath → String
  | .queue name => name
  | .subscription topic name => s!"{topic}|{name}"

/-- What a request is about. -/
def Request.subject : Request → String
  | .connect address => address
  | .createSender entity | .sendMessage entity | .disposeSender entity => entity
  | .sendMessages entity count => s!"{entity} {count}"
  | .openLink entity => sourceName entity
  | .receive link most wait => s!"#{link} {most} {wait.millis}ms"
  | .complete link id | .abandon link id => "#" ++ toString link ++ " " ++ id.getD "-"
  | .disposeLink link => s!"#{link}"

/-- The text of a request, without blanks at its ends. -/
def Request.text (r : Request) : String := Text.trim (r.kind ++ " " ++ r.subject)

/-- The other side. -/
structure Network where
  /-- The outcomes arranged for the next requests of each kind. -/
  outcomes : Table String (List (Option String)) := .empty
  /-- The messages that wait, by entity. -/
  waiting : Table String (List Incoming) := .empty
  /-- The requests so far. -/
  requests : List Request := []
  /-- The messages that were sent successfully. -/
  sent : List Outgoing := []
  /-- The entity of each link, in the order in which they were opened. -/
  links : List String := []
  /-- How a value is printed by what carries it. -/
  print : Amqp.Value → String := fun _ => ""

instance : Inhabited Network := ⟨{}⟩

namespace Network

/-- Makes a request; answers why it failed, if it did. -/
def ask (n : Network) (r : Request) : Option String × Network :=
  let n := { n with requests := n.requests ++ [r] }
  match n.outcomes.getD r.kind [] with
  | [] => (none, n)
  | outcome :: rest => (outcome, { n with outcomes := n.outcomes.put r.kind rest })

/-- Arranges the outcomes of the next requests of a kind. -/
def arrange (n : Network) (kind : String) (outcomes : List (Option String)) : Network :=
  { n with outcomes := n.outcomes.put kind outcomes }

/-- The messages that wait for a link. -/
def waitingFor (n : Network) (link : Nat) : List Incoming :=
  n.waiting.getD (n.links.getD link "") []

/-- Messages arrive at an entity. -/
def push (n : Network) (entity : String) (messages : List Incoming) : Network :=
  { n with waiting := n.waiting.put entity (n.waiting.getD entity [] ++ messages) }

/-- A link takes messages, as many as it asked for at most. -/
def take (n : Network) (link most : Nat) : List Incoming × Network :=
  let all := n.waitingFor link
  (all.take most, { n with waiting := n.waiting.put (n.links.getD link "") (all.drop most) })

/-- A link to an entity is opened; its number, and the other side with it. -/
def addLink (n : Network) (entity : EntityPath) : Nat × Network :=
  (n.links.length, { n with links := n.links ++ [sourceName entity] })

end Network

end PeekLock.Remote
