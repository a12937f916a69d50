import PeekLock.Duration
import PeekLock.Text.Blank

/-!
# PeekLock.Consumer.Settings

The settings of one consumer: what it consumes, with how many workers, in
batches of which size, and how long it waits for what.

A value that says nothing — a count or span of zero, a blank log target —
is replaced by the default when the consumer is built (`normalized`), so a
partially filled record is always usable.
-/

namespace PeekLock

/-- The settings of a consumer. -/
structure ConsumerSettings where
  /-- The queue, or `topic/subscriptions/name`. -/
  entity : String
  /-- How many workers run side by side. -/
  workers : Nat
  /-- The most messages that one receive asks for. -/
  batch : Nat
  /-- How long one receive waits for messages. -/
  receiveTimeout : Duration
  /-- The pause after a receive that failed. -/
  errorBackoff : Duration
  /-- How long a stop waits for the workers. -/
  shutdownTimeout : Duration
  /-- The log target of every record that the consumer writes. -/
  logTarget : String
  deriving DecidableEq, Repr, Inhabited

namespace ConsumerSettings

/-- One worker. -/
def defaultWorkers : Nat := 1

/-- Ten messages. -/
def defaultBatch : Nat := 10

/-- Five seconds. -/
def defaultReceiveTimeout : Duration := .ofSeconds 5

/-- One second. -/
def defaultErrorBackoff : Duration := .ofSeconds 1

/-- Thirty seconds. -/
def defaultShutdownTimeout : Duration := .ofSeconds 30

/-- The target that consumers log under unless told otherwise. -/
def defaultLogTarget : String := "servicekit::consumer"

/-- The default settings for an entity. -/
def ofEntity (entity : String) : ConsumerSettings :=
  ⟨entity, defaultWorkers, defaultBatch, defaultReceiveTimeout, defaultErrorBackoff,
    defaultShutdownTimeout, defaultLogTarget⟩

/-- A count, unless it is zero. -/
def countOr (default n : Nat) : Nat := if n = 0 then default else n

/-- A span, unless it is empty. -/
def spanOr (default d : Duration) : Duration := if d.isZero then default else d

/-- Replaces what says nothing by the defaults. -/
def normalized (s : ConsumerSettings) : ConsumerSettings :=
  { s with
    workers := countOr defaultWorkers s.workers
    batch := countOr defaultBatch s.batch
    receiveTimeout := spanOr defaultReceiveTimeout s.receiveTimeout
    errorBackoff := spanOr defaultErrorBackoff s.errorBackoff
    shutdownTimeout := spanOr defaultShutdownTimeout s.shutdownTimeout
    logTarget := if Text.isBlankText s.logTarget then defaultLogTarget else s.logTarget }

end ConsumerSettings

end PeekLock
