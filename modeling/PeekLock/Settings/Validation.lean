import PeekLock.Decimal.Shortest
import PeekLock.Settings.Basic
import PeekLock.Text.LowerCase

/-!
# PeekLock.Settings.Validation

The limits that settings must keep.

`Settings.violations` checks every rule on the effective values — after
defaults, clamping and trimming — and lists what is broken, in the order
of the rules.  A violation knows its message and the hint that is shown to
whoever wrote the settings.
-/

namespace PeekLock

/-- A broken rule, with the value that broke it and the limit. -/
inductive Violation where
  | concurrency (configured limit : Nat)
  | maxMessages (configured limit : Nat)
  | receiveTimeout (configured limit : Nat)
  | shutdownTimeout (configured limit : Nat)
  | receiveErrorBackoff (configured limit : Nat)
  | incompleteSubscription
  | logLevel (configured : String)
  | retryAttempts (configured limit : Nat)
  | retryMultiplier (configured : Float)
  | retryDelays (initial max : Nat)
  deriving DecidableEq, Inhabited

namespace Violation

/-- The message of a violation. -/
def message : Violation → String
  | .concurrency configured limit =>
    s!"Invalid servicebus.concurrency: {configured} (limit: {limit})"
  | .maxMessages configured limit =>
    s!"Invalid servicebus.max_messages: {configured} (limit: {limit})"
  | .receiveTimeout configured limit =>
    s!"Invalid servicebus.receive_timeout_secs: {configured} (min: 1, max: {limit})"
  | .shutdownTimeout configured limit =>
    s!"Invalid servicebus.shutdown_timeout_secs: {configured} (min: 1, max: {limit})"
  | .receiveErrorBackoff configured limit =>
    s!"Invalid servicebus.receive_error_backoff_ms: {configured} (limit: {limit})"
  | .incompleteSubscription =>
    "servicebus.topic and servicebus.subscription must be set together"
  | .logLevel configured => s!"Invalid logging.level: {configured}"
  | .retryAttempts configured limit =>
    s!"Invalid retry.max_attempts: {configured} (min: 1, max: {limit})"
  | .retryMultiplier configured =>
    s!"Invalid retry.multiplier: {Decimal.plain configured} (must be at least 1.0)"
  | .retryDelays initial max =>
    s!"retry.initial_delay_ms ({initial}) exceeds retry.max_delay_ms ({max})"

/-- What to do about a violation; its message where there is no better hint. -/
def hint : Violation → String
  | .concurrency configured limit =>
    s!"Too many workers: {configured}. Set servicebus.concurrency to {limit} or less."
  | .maxMessages configured limit =>
    s!"Receive batch too large: {configured}. " ++
      s!"Azure Service Bus returns at most {limit} messages per call."
  | .incompleteSubscription =>
    "Set both servicebus.topic and servicebus.subscription to consume a subscription, " ++
      "or neither to consume servicebus.queue."
  | .logLevel configured =>
    s!"Unknown log level '{configured}'. Use one of: trace, debug, info, warn, error."
  | v => v.message

/-- The message about several violations: a heading and one line for each hint. -/
def report (violations : List Violation) : String :=
  "Configuration validation failed:\n" ++
    "\n".intercalate (violations.map fun v => s!"- {v.hint}")

end Violation

/-! ## The limits -/

namespace Settings

/-- Most workers of a consumer. -/
def maxWorkers : Nat := 256

/-- Most messages that the bus hands out at once. -/
def maxBatch : Nat := 2048

/-- Longest wait, in seconds. -/
def maxTimeoutSecs : Nat := 600

/-- Longest pause after a failed receive, in milliseconds. -/
def maxBackoffMs : Nat := 300000

/-- Most attempts to connect. -/
def maxRetryAttempts : Nat := 20

/-- The names of the log levels. -/
def logLevels : List String := ["trace", "debug", "info", "warn", "error", "off"]

/-- A violation, if its condition holds. -/
def whenever (broken : Bool) (v : Violation) : List Violation := if broken then [v] else []

/-- Everything that is wrong with the settings. -/
def violations (s : Settings) : List Violation :=
  let bus := s.bus
  let receive := bus.receiveTimeoutSecs
  let shutdown := bus.shutdownTimeoutSecs
  let attempts := s.retry.maxAttempts
  let multiplier := s.retry.multiplier
  whenever (maxWorkers < bus.concurrency) (.concurrency bus.concurrency maxWorkers) ++
  whenever (maxBatch < bus.maxMessages) (.maxMessages bus.maxMessages maxBatch) ++
  whenever (receive = 0 || maxTimeoutSecs < receive) (.receiveTimeout receive maxTimeoutSecs) ++
  whenever (shutdown = 0 || maxTimeoutSecs < shutdown) (.shutdownTimeout shutdown maxTimeoutSecs) ++
  whenever (maxBackoffMs < bus.receiveErrorBackoffMs)
    (.receiveErrorBackoff bus.receiveErrorBackoffMs maxBackoffMs) ++
  whenever (bus.topic.isSome != bus.subscription.isSome) .incompleteSubscription ++
  whenever (!logLevels.contains (Text.lowerCase s.logging.level)) (.logLevel s.logging.level) ++
  whenever (attempts = 0 || maxRetryAttempts < attempts)
    (.retryAttempts attempts maxRetryAttempts) ++
  whenever (multiplier.isNaN || multiplier < 1.0) (.retryMultiplier multiplier) ++
  whenever (s.retry.maxDelayMs < s.retry.initialDelayMs)
    (.retryDelays s.retry.initialDelayMs s.retry.maxDelayMs)

end Settings

end PeekLock
