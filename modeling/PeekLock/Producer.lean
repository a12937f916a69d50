import PeekLock.Bus.Basic
import PeekLock.Text.Quoted

/-!
# PeekLock.Producer

Senders that are bound to one queue or topic.

A producer prepares what it is given to send: texts travel as plain text
and data as JSON, whatever content type the options name.  An empty batch
is not sent at all.
-/

namespace PeekLock

/-- A producer. -/
structure Producer where
  target : String
  deriving DecidableEq, Repr, Inhabited

namespace Producer

/-- The content type of data. -/
def jsonContentType : String := "application/json"

/-- The content type of texts. -/
def textContentType : String := "text/plain"

/-- The producer for a target; a subscription cannot be sent to. -/
def new (target : String) : Except BusError Producer :=
  match EntityPath.parse target with
  | .error e => .error e
  | .ok (.queue _) => .ok ⟨target⟩
  | .ok (.subscription _ _) =>
    .error (.invalidQueueName
      s!"cannot send to subscription {target}, send to its topic instead")

/-- A short description of a producer. -/
def description (p : Producer) : String :=
  "Producer \x7b target: " ++ Text.quoted p.target ++ ", .. \x7d"

/-- Data to be sent. -/
inductive Payload where
  | json (v : Json)
  /-- A map whose keys are no texts, which JSON cannot express. -/
  | unkeyed
  deriving DecidableEq, Inhabited

/-- The body of a text. -/
def textBody (text : String) : List UInt8 := Text.Utf8.bytesOf text

/-- The options that a text is sent with. -/
def textOptions : SendOptions := { contentType := some textContentType }

/-- The body of some data. -/
def jsonBody : Payload → Except BusError (List UInt8)
  | .json v => .ok (Text.Utf8.bytesOf v.render)
  | .unkeyed =>
    .error (.sendFailed "Failed to serialize message body: key must be a string")

/-- The options that data is sent with. -/
def jsonOptions (options : SendOptions) : SendOptions :=
  { options with contentType := some jsonContentType }

/-! ## Sending -/

/-- The send of one message. -/
def send (p : Producer) (medium : Medium) (body : List UInt8) (options : SendOptions) : Bus.Send :=
  .one medium p.target body options

/-- The send of a text. -/
def sendText (p : Producer) (medium : Medium) (text : String) : Bus.Send :=
  p.send medium (textBody text) textOptions

/-- The send of some data, if it can be written as JSON. -/
def sendJson (p : Producer) (medium : Medium) (payload : Payload) (options : SendOptions) :
    Except BusError Bus.Send :=
  (jsonBody payload).map fun body => p.send medium body (jsonOptions options)

/-- The send of a batch; there is none if the batch is empty. -/
def sendBatch (p : Producer) (medium : Medium) (bodies : List (List UInt8))
    (options : SendOptions) : Option Bus.Send :=
  if bodies.isEmpty then none else some (.batch medium p.target bodies options)

end Producer

end PeekLock
