import PeekLock.Consumer.Settings
import PeekLock.Retry.Policy
import PeekLock.Text.Blank

/-!
# PeekLock.Settings.Basic

The settings of a service, in four sections.

Every value is optional.  The accessors supply the defaults: a blank text
counts as not given where the bus is concerned, and so does a count of
zero or below.  Texts of the bus section are trimmed.
-/

namespace PeekLock

/-- Who the service is. -/
structure AppSettings where
  name? : Option String := none
  version? : Option String := none
  environment? : Option String := none
  deriving DecidableEq, Repr, Inhabited

/-- Where the messages come from and how they are consumed. -/
structure BusSettings where
  connectionString? : Option String := none
  queue? : Option String := none
  topic? : Option String := none
  subscription? : Option String := none
  concurrency? : Option Int := none
  maxMessages? : Option Int := none
  receiveTimeoutSecs? : Option Nat := none
  shutdownTimeoutSecs? : Option Nat := none
  receiveErrorBackoffMs? : Option Nat := none
  deriving DecidableEq, Repr, Inhabited

/-- What is logged, and where to. -/
structure LoggingSettings where
  level? : Option String := none
  file? : Option String := none
  deriving DecidableEq, Repr, Inhabited

/-- How connecting is retried. -/
structure RetrySettings where
  maxAttempts? : Option Nat := none
  initialDelayMs? : Option Nat := none
  maxDelayMs? : Option Nat := none
  multiplier? : Option Float := none
  deriving DecidableEq, Inhabited

/-- All settings of a service. -/
structure Settings where
  app : AppSettings := {}
  bus : BusSettings := {}
  logging : LoggingSettings := {}
  retry : RetrySettings := {}
  deriving DecidableEq, Inhabited

namespace AppSettings

/-- The name of the service. -/
def name (s : AppSettings) : String := s.name?.getD "servicekit"

/-- The version of the service. -/
def version (s : AppSettings) : String := s.version?.getD "1.0.0"

/-- Where the service is deployed. -/
def environment (s : AppSettings) : String := s.environment?.getD "dev"

end AppSettings

namespace BusSettings

/-- A text with the blanks at its ends removed, unless nothing is left. -/
def nonBlank (text? : Option String) : Option String :=
  (text?.map Text.trim).filter fun s => !s.isEmpty

/-- The string that tells how to connect. -/
def connectionString (s : BusSettings) : Option String := nonBlank s.connectionString?

/-- The queue that is consumed when none is given. -/
def defaultQueue : String := "default-queue"

/-- The queue. -/
def queue (s : BusSettings) : String := (nonBlank s.queue?).getD defaultQueue

/-- The topic. -/
def topic (s : BusSettings) : Option String := nonBlank s.topic?

/-- The subscription of the topic. -/
def subscription (s : BusSettings) : Option String := nonBlank s.subscription?

/-- What is consumed: the subscription if topic and subscription are given,
the queue otherwise. -/
def entity (s : BusSettings) : String :=
  match s.topic, s.subscription with
  | some topic, some name => s!"{topic}/subscriptions/{name}"
  | _, _ => s.queue

/-- Where messages are sent: the topic if there is one, the queue otherwise. -/
def sendTarget (s : BusSettings) : String := s.topic.getD s.queue

/-- A positive count, at most `limit`; anything else is the default. -/
def positiveOr (default limit : Nat) : Option Int → Nat
  | some n => if 0 < n then min n.toNat limit else default
  | none => default

/-- How many workers run. -/
def concurrency (s : BusSettings) : Nat :=
  positiveOr ConsumerSettings.defaultWorkers (UInt64.size - 1) s.concurrency?

/-- The most messages that one receive asks for. -/
def maxMessages (s : BusSettings) : Nat :=
  positiveOr ConsumerSettings.defaultBatch (UInt32.size - 1) s.maxMessages?

/-- How long a receive waits, in seconds. -/
def receiveTimeoutSecs (s : BusSettings) : Nat :=
  s.receiveTimeoutSecs?.getD ConsumerSettings.defaultReceiveTimeout.seconds

/-- How long a stop waits, in seconds. -/
def shutdownTimeoutSecs (s : BusSettings) : Nat :=
  s.shutdownTimeoutSecs?.getD ConsumerSettings.defaultShutdownTimeout.seconds

/-- The pause after a failed receive, in milliseconds. -/
def receiveErrorBackoffMs (s : BusSettings) : Nat :=
  s.receiveErrorBackoffMs?.getD ConsumerSettings.defaultErrorBackoff.millis

/-- The settings of the consumer of the entity. -/
def consumer (s : BusSettings) : ConsumerSettings :=
  { ConsumerSettings.ofEntity s.entity with
    workers := s.concurrency
    batch := s.maxMessages
    receiveTimeout := .ofSeconds s.receiveTimeoutSecs
    shutdownTimeout := .ofSeconds s.shutdownTimeoutSecs
    errorBackoff := .ofMillis s.receiveErrorBackoffMs }.normalized

end BusSettings

namespace LoggingSettings

/-- The level down to which records are kept. -/
def level (s : LoggingSettings) : String := s.level?.getD "info"

/-- The file that records go to, unless its name is blank. -/
def file (s : LoggingSettings) : Option String :=
  s.file?.filter fun f => !Text.isBlankText f

end LoggingSettings

namespace RetrySettings

/-- How many attempts are made. -/
def maxAttempts (s : RetrySettings) : Nat := s.maxAttempts?.getD 3

/-- The first delay, in milliseconds. -/
def initialDelayMs (s : RetrySettings) : Nat := s.initialDelayMs?.getD 100

/-- The longest delay, in milliseconds. -/
def maxDelayMs (s : RetrySettings) : Nat := s.maxDelayMs?.getD 5000

/-- The growth from one delay to the next. -/
def multiplier (s : RetrySettings) : Float := s.multiplier?.getD 2.0

/-- The policy that the settings describe. -/
def policy (s : RetrySettings) : RetryPolicy :=
  ⟨s.maxAttempts, .ofMillis s.initialDelayMs, .ofMillis s.maxDelayMs, s.multiplier⟩

end RetrySettings

end PeekLock
