import PeekLock.Amqp
import PeekLock.BusError
import PeekLock.Identifier

/-!
# PeekLock.Remote.Outgoing

Messages on their way to the remote bus.

A message gets the id that the options give or a generated one.  The bus
refuses ids that are empty or longer than 128 bytes, which a generated one
never is.  In a batch only the first message keeps the given id; a shared
one would collide.
-/

namespace PeekLock.Remote

/-- A message as it is handed to the remote bus. -/
structure Outgoing where
  id : String
  contentType : Option String
  body : List UInt8
  /-- Absent when the options give no properties. -/
  properties : Option Amqp.Properties
  deriving DecidableEq, Inhabited

/-- The most bytes of a message id. -/
def maxIdBytes : Nat := 128

/-- Why the bus refuses an id, if it does. -/
def idProblem (id : String) : Option String :=
  let bytes := (Text.Utf8.bytesOf id).length
  if bytes = 0 then some "Value cannot be empty"
  else if maxIdBytes < bytes then
    some (s!"MaxLengthExceededError: The actual length {bytes} exceeds the maximum length " ++
      s!"{maxIdBytes}")
  else none

/-- The id of a message: the one that is given, unless the bus refuses it, or the
next one of the supply; also how many generated ids have been used then. -/
def messageId (supply : Identifier.Supply) (used : Nat) :
    Option String → Except BusError (String × Nat)
  | none => .ok (supply.nth used, used + 1)
  | some id =>
    match idProblem id with
    | some problem => .error (.sendFailed s!"invalid message id: {problem}")
    | none => .ok (id, used)

/-- The message with a body; also how many generated ids have been used then. -/
def Outgoing.build (supply : Identifier.Supply) (used : Nat) (body : List UInt8)
    (options : SendOptions) : Except BusError (Outgoing × Nat) :=
  match messageId supply used options.messageId with
  | .error e => .error e
  | .ok (id, used) =>
    let properties :=
      if options.properties.isEmpty then none else some (Amqp.ofProperties options.properties)
    .ok (⟨id, options.contentType, body, properties⟩, used)

/-- The messages with some bodies, from the one with this index on. -/
def Outgoing.buildFrom (supply : Identifier.Supply) (index used : Nat) :
    (bodies : List (List UInt8)) → SendOptions → Except BusError (List Outgoing × Nat)
  | [], _ => .ok ([], used)
  | body :: rest, options =>
    let own := if index = 0 then options else { options with messageId := none }
    match Outgoing.build supply used body own with
    | .error e => .error e
    | .ok (m, used) =>
      match Outgoing.buildFrom supply (index + 1) used rest options with
      | .error e => .error e
      | .ok (ms, used) => .ok (m :: ms, used)

/-- The messages of a batch. -/
def Outgoing.buildBatch (supply : Identifier.Supply) (used : Nat) (bodies : List (List UInt8))
    (options : SendOptions) : Except BusError (List Outgoing × Nat) :=
  Outgoing.buildFrom supply 0 used bodies options

end PeekLock.Remote
