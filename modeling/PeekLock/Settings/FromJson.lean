import PeekLock.Json.Decoder
import PeekLock.Settings.Basic

/-!
# PeekLock.Settings.FromJson

Settings read straight from JSON text.

Each section is a record, and so is the whole.  No conversions are made:
a count must be an integer, a text a string.  The sections at the end of
an array may be missing, the fields of a section may not.
-/

namespace PeekLock.Settings

open Json (Decoder)
open Json.Decoder

/-- A text that may be null. -/
def optionalText : Decoder (Option String) := optional text

/-- A span or count of 64 bits that may be null. -/
def optionalNat : Decoder (Option Nat) := optional (natural Decimal.maxU64)

/-- The first section. -/
def appRecord : Decoder AppSettings :=
  record [
    .of "name" optionalText fun s v => { s with name? := v },
    .of "version" optionalText fun s v => { s with version? := v },
    .of "environment" optionalText fun s v => { s with environment? := v }] true {}

/-- The second section. -/
def busRecord : Decoder BusSettings :=
  record [
    .of "connection_string" optionalText fun s v => { s with connectionString? := v },
    .of "queue" optionalText fun s v => { s with queue? := v },
    .of "topic" optionalText fun s v => { s with topic? := v },
    .of "subscription" optionalText fun s v => { s with subscription? := v },
    .of "concurrency" (optional integer) fun s v => { s with concurrency? := v },
    .of "max_messages" (optional integer) fun s v => { s with maxMessages? := v },
    .of "receive_timeout_secs" optionalNat fun s v => { s with receiveTimeoutSecs? := v },
    .of "shutdown_timeout_secs" optionalNat fun s v => { s with shutdownTimeoutSecs? := v },
    .of "receive_error_backoff_ms" optionalNat fun s v => { s with receiveErrorBackoffMs? := v }]
    true {}

/-- The third section. -/
def loggingRecord : Decoder LoggingSettings :=
  record [
    .of "level" optionalText fun s v => { s with level? := v },
    .of "file" optionalText fun s v => { s with file? := v }] true {}

/-- The fourth section. -/
def retryRecord : Decoder RetrySettings :=
  record [
    .of "max_attempts" (optional (natural Decimal.maxU32)) fun s v => { s with maxAttempts? := v },
    .of "initial_delay_ms" optionalNat fun s v => { s with initialDelayMs? := v },
    .of "max_delay_ms" optionalNat fun s v => { s with maxDelayMs? := v },
    .of "multiplier" (optional real) fun s v => { s with multiplier? := v }] true {}

/-- All sections. -/
def decoder : Decoder Settings :=
  record [
    .of "app" appRecord fun s v => { s with app := v },
    .of "servicebus" busRecord fun s v => { s with bus := v },
    .of "logging" loggingRecord fun s v => { s with logging := v },
    .of "retry" retryRecord fun s v => { s with retry := v }] false {}

/-- The settings that a JSON text holds. -/
def ofJsonText (s : String) : Except Json.Fault Settings :=
  decoder.run (Text.Utf8.bytesOf s)

end PeekLock.Settings
