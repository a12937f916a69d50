import PeekLock.Json.Reader
import PeekLock.Log
import PeekLock.Message
import PeekLock.Producer
import PeekLock.Service.Stats

/-!
# PeekLock.Service.Handler

The handler of the service: it logs every message, and counts it.

A message that claims to be JSON is rejected if it is not, so that the bus
delivers it again; everything else is accepted.
-/

namespace PeekLock.Service

/-- A record of the handler. -/
def handlerLog (text : String) : LogRecord := ⟨.info, .part "demo_service::handler", text⟩

/-- Whether a message claims to be JSON. -/
def claimsJson (m : Message) : Bool := m.contentType = some Producer.jsonContentType

/-- What is logged about a message with that JSON in its body. -/
def jsonLog (c : MessageContext) (v : Json) : LogRecord :=
  let m := c.message
  handlerLog (s!"Worker {c.worker} received message {m.id} (delivery {m.deliveryCount}, " ++
    s!"correlation {c.correlationId}): {v.render}")

/-- What is logged about any other message. -/
def textLog (c : MessageContext) : LogRecord :=
  let m := c.message
  handlerLog (s!"Worker {c.worker} received message {m.id} (delivery {m.deliveryCount}, " ++
    s!"{m.body.length} bytes): {m.bodyText}")

/-- Handles a message: whether it is accepted, what is logged, and the counters
afterwards. -/
def logMessage (c : MessageContext) (s : Stats) : Except String Unit × List LogRecord × Stats :=
  let m := c.message
  if claimsJson m then
    match Json.read m.body with
    | .ok v => (.ok (), [jsonLog c v], s.recordProcessed)
    | .error fault =>
      (.error s!"message {m.id} is not valid JSON: {fault.message m.body}", [], s.recordFailed)
  else (.ok (), [textLog c], s.recordProcessed)

end PeekLock.Service
