/-!
# PeekLock.BusError

What can go wrong between a service and its message bus.

Each error is a cause with the detail that its message needs.  Two
classifications steer the rest of the library: a receive that timed out
or was cancelled is an *empty poll*, which is no failure at all, and only
*transient* errors are worth another attempt.
-/

namespace PeekLock

/-- The errors of clients, receivers and consumers. -/
inductive BusError where
  | connectionFailed (detail : String)
  | consumerCreationFailed (detail : String)
  | producerCreationFailed (detail : String)
  | receiveFailed (detail : String)
  | sendFailed (detail : String)
  | completeFailed (detail : String)
  | abandonFailed (detail : String)
  /-- The lock token is unknown, was used already, or belongs to another
  receiver. -/
  | lockLost (token : String)
  | invalidQueueName (name : String)
  | configurationError (detail : String)
  | operationTimeout (detail : String)
  | cancelled (detail : String)
  | invalidState (detail : String)
  | receiverClosed
  | retryExhausted (attempts : Nat) (lastError : String)
  | internalError (detail : String)
  deriving DecidableEq, Repr, Inhabited

namespace BusError

/-- The message of an error. -/
def message : BusError → String
  | .connectionFailed detail => s!"Connection failed: {detail}"
  | .consumerCreationFailed detail => s!"Consumer creation failed: {detail}"
  | .producerCreationFailed detail => s!"Producer creation failed: {detail}"
  | .receiveFailed detail => s!"Message receive failed: {detail}"
  | .sendFailed detail => s!"Message send failed: {detail}"
  | .completeFailed detail => s!"Message complete failed: {detail}"
  | .abandonFailed detail => s!"Message abandon failed: {detail}"
  | .lockLost token => s!"Message lock lost or unknown: {token}"
  | .invalidQueueName name => s!"Invalid queue name: {name}"
  | .configurationError detail => s!"Configuration error: {detail}"
  | .operationTimeout detail => s!"Operation timeout: {detail}"
  | .cancelled detail => s!"Operation cancelled: {detail}"
  | .invalidState detail => s!"Invalid state: {detail}"
  | .receiverClosed => "Receiver already closed"
  | .retryExhausted attempts lastError =>
    s!"Max attempts ({attempts}) reached, last error: {lastError}"
  | .internalError detail => s!"Internal error: {detail}"

/-- A receive that ends so has just found nothing. -/
def isEmptyPoll : BusError → Bool
  | .operationTimeout _ | .cancelled _ => true
  | _ => false

/-- Repeating the call may succeed. -/
def isTransient : BusError → Bool
  | .connectionFailed _ | .receiveFailed _ | .sendFailed _ | .operationTimeout _
  | .internalError _ => true
  | _ => false

end BusError

end PeekLock
