import PeekLock.Json.Printer
import PeekLock.Text.Utf8
import PeekLock.Timestamp

/-!
# PeekLock.Message

Messages, the tokens under which they are checked out, and the options
that a sender gives.

A received message carries a lock token.  The token means something only
to the receiver that handed it out, and is to be handed back once, to
complete the message or to abandon it.
-/

namespace PeekLock

/-- The handle under which a message is checked out. -/
structure LockToken where
  text : String
  deriving DecidableEq, Repr, Inhabited

/-- Application properties: values by key, the keys sorted and distinct. -/
abbrev Properties := List (String × Json)

/-- Sets a property. -/
def Properties.set (p : Properties) (key : String) (value : Json) : Properties :=
  Json.insertField key value p

/-- The properties with the given entries; of two with one key the later wins. -/
def Properties.ofList (entries : List (String × Json)) : Properties :=
  entries.foldl (fun p e => p.set e.1 e.2) []

/-- A message as a receiver hands it out. -/
structure Message where
  id : String
  body : List UInt8
  lockToken : LockToken
  contentType : Option String
  properties : Properties
  /-- When the bus accepted the message. -/
  enqueuedAt : Timestamp
  /-- How often the message has been handed out, this time included.  A bus has 32 bits for it, so
  this is what it says of a message that is handed out less than 2^32 times. -/
  deliveryCount : Nat
  deriving DecidableEq, Inhabited

namespace Message

/-- The body as text, broken UTF-8 replaced. -/
def bodyText (m : Message) : String := Text.Utf8.textOf m.body

/-- A property that holds a string. -/
def property? (m : Message) (key : String) : Option String :=
  (m.properties.lookup key).bind Json.text?

/-- The property that names the request a message belongs to. -/
def correlationKey : String := "correlation_id"

/-- The request a message belongs to: the one its property names, or the
message itself. -/
def correlationId (m : Message) : String := (m.property? correlationKey).getD m.id

/-- A message as JSON, the body as a list of byte values. -/
def toJson (m : Message) : Json :=
  .ofMembers [
    ("id", .string m.id),
    ("body", .array (m.body.map fun b => .nat b.toNat)),
    ("lock_token", .string m.lockToken.text),
    ("content_type", m.contentType.elim .null .string),
    ("properties", .object m.properties),
    ("enqueued_at", .string m.enqueuedAt.text),
    ("delivery_count", .nat m.deliveryCount)]

end Message

/-- What a sender may say about the messages it sends. -/
structure SendOptions where
  contentType : Option String := none
  properties : Properties := []
  /-- The id of the message; the bus generates one if it is not given. -/
  messageId : Option String := none
  deriving DecidableEq, Inhabited

/-- What a handler gets with a message: which worker received it, from which
entity, and for which request. -/
structure MessageContext where
  message : Message
  worker : Nat
  entity : String
  correlationId : String
  deriving DecidableEq, Inhabited

/-- The context of a message that a worker received from an entity. -/
def MessageContext.of (m : Message) (worker : Nat) (entity : String) : MessageContext :=
  ⟨m, worker, entity, m.correlationId⟩

end PeekLock
