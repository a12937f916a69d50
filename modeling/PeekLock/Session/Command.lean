import PeekLock.Bus.Basic
import PeekLock.Consumer.Lifecycle
import PeekLock.Producer

/-!
# PeekLock.Session.Command

What can be asked of a session: a client of one of the buses, with
receivers, producers and consumers, each under a name of its own.

The consumers' handlers are told by rules what to do with which message,
or are the handler of the service.
-/

namespace PeekLock.Session

/-- What a handler does with a message. -/
inductive Action where
  | accept
  | reject (text : String)
  /-- Never returns. -/
  | hang
  | panic (text : String)
  /-- Waits for the cancellation of the worker's scope, and accepts. -/
  | waitForCancel
  deriving DecidableEq, Repr, Inhabited

/-- What a handler does with the messages that match. -/
structure Rule where
  /-- The id that a message must have. -/
  id : Option String := none
  /-- How its id must begin. -/
  idStart : Option String := none
  /-- How often it may have been delivered at most. -/
  maxDelivery : Option Nat := none
  /-- How long the handler takes, in milliseconds. -/
  delay : Option Nat := none
  action : Action := .accept
  deriving DecidableEq, Repr, Inhabited

/-- Whether one text begins with another. -/
def beginsWith (text start : String) : Bool := start.toList.isPrefixOf text.toList

/-- Whether a rule is for a message. -/
def Rule.fits (r : Rule) (m : Message) : Bool :=
  r.id.all (· = m.id) && r.idStart.all (beginsWith m.id ·) &&
    r.maxDelivery.all (m.deliveryCount ≤ ·)

/-- A handler. -/
inductive Handler where
  /-- Notes every call, and follows the first rule that fits; without one it
  accepts. -/
  | rules (rules : List Rule)
  /-- The handler of the service. -/
  | service
  deriving DecidableEq, Repr, Inhabited

/-- Where a new consumer gets its receiver. -/
inductive Supply where
  /-- From the client. -/
  | client
  /-- It is the receiver of that name. -/
  | receiver (name : String)
  /-- From a client that fails so. -/
  | failure (e : BusError)
  deriving DecidableEq, Inhabited

/-- Which lock token to present. -/
inductive TokenChoice where
  /-- That of the message with this number, counted around. -/
  | number (n : Nat)
  | text (t : String)
  deriving DecidableEq, Repr, Inhabited

/-- A change of the faults of the in-memory bus. -/
inductive FaultChange where
  | receiveError (e : Option BusError)
  | completeError (e : Option BusError)
  | abandonError (e : Option BusError)
  | timeouts (count : Nat)
  | latency (d : Option Duration)
  | reject (entity : String)
  deriving DecidableEq, Inhabited

/-- The faults after a change. -/
def FaultChange.apply (f : Faults) : FaultChange → Faults
  | .receiveError e => { f with receiveError := e }
  | .completeError e => { f with completeError := e }
  | .abandonError e => { f with abandonError := e }
  | .timeouts count => { f with timeouts := count }
  | .latency d => { f with latency := d }
  | .reject entity => { f with rejected := f.rejected ++ [entity] }

/-- A receive that is asked for. -/
structure Fetch where
  receiver : String
  most : Nat
  timeout : Duration
  /-- Whether the answer lists the messages by id. -/
  sorted : Bool := false
  deriving DecidableEq, Repr, Inhabited

/-- What can be asked of a session. -/
inductive Command where
  | sleep (ms : Nat)
  -- the in-memory bus
  | createSubscription (topic name : String)
  | fault (change : FaultChange)
  -- the remote bus
  | connect (address : String)
  | connectWithRetry (address : String) (policy : RetryPolicy) (token : String)
  | push (entity : String) (messages : List Remote.Incoming)
  | arrange (kind : String) (outcomes : List (Option String))
  -- the client
  | send (target : String) (body : List UInt8) (options : SendOptions)
  | sendBatch (target : String) (bodies : List (List UInt8)) (options : SendOptions)
  | createReceiver (name entity : String) (script : List (Option BusError))
      (closeError : Option BusError)
  -- receivers
  | receive (fetch : Fetch)
  | receiveAsync (fetch : Fetch) (job : String)
  | settle (receiver : String) (token : TokenChoice) (verdict : Verdict)
  | close (receiver : String)
  -- calls in the background
  | poll (job : String)
  | join (job : String)
  | abort (job : String)
  -- producers
  | createProducer (name target : String)
  | produce (producer : String) (body : List UInt8) (options : SendOptions)
  | produceText (producer text : String)
  | produceJson (producer : String) (payload : Producer.Payload) (options : SendOptions)
  | produceBatch (producer : String) (bodies : List (List UInt8)) (options : SendOptions)
  -- consumers
  | createConsumer (name : String) (settings : ConsumerSettings) (handler : Handler)
      (supply : Supply)
  | start (consumer token : String)
  | cancel (token : String)
  | stop (consumer : String) (deadline : Option Duration)
  | stopAsync (consumer : String) (deadline : Option Duration) (job : String)
  | dropConsumer (consumer : String)

end PeekLock.Session
