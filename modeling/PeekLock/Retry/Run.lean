import PeekLock.BusError
import PeekLock.Log
import PeekLock.Retry.Policy

/-!
# PeekLock.Retry.Run

Repeating a call until it succeeds, fails for good, or the attempts are
used up.

An attempt that fails for a transient reason is logged, and the next one
follows after the pause that the policy gives.  A cancellation is noticed
before an attempt and during a pause, but never interrupts an attempt.
`Retry.next` decides what follows an attempt; `Retry.run` plays a whole
call through against operations that take some time.
-/

namespace PeekLock

/-- The pause after the failed attempt of that number, counted from zero. -/
def RetryPolicy.pause (p : RetryPolicy) (attempt : Nat) : Duration :=
  (p.delay? attempt).getD p.maxDelay

namespace Retry

/-- The error of a call that is cancelled between two attempts. -/
def cancelled : BusError := .cancelled "retry cancelled"

/-- The error after the last attempt. -/
def exhausted (p : RetryPolicy) (last : Option BusError) : BusError :=
  .retryExhausted p.attempts (last.elim "" BusError.message)

/-- The record of a failed attempt. -/
def failureLog (p : RetryPolicy) (attempt : Nat) (e : BusError) : LogRecord :=
  .retry .warn s!"Attempt {attempt + 1} of {p.attempts} failed: {e.message}"

/-- What follows an attempt. -/
inductive Next (α : Type) where
  /-- The call is over. -/
  | done (result : Except BusError α)
  /-- The attempt is logged, and it was the last. -/
  | giveUp (e : BusError)
  /-- The attempt is logged, and another one follows after a pause. -/
  | pause (e : BusError) (length : Duration)

/-- What follows the attempt of that number. -/
def next {α : Type} (p : RetryPolicy) (attempt : Nat) : Except BusError α → Next α
  | .ok value => .done (.ok value)
  | .error e =>
    if e.isTransient then
      if attempt + 1 < p.attempts then .pause e (p.pause attempt) else .giveUp e
    else .done (.error e)

/-- One run of the operation: what it answers, and after how many
milliseconds. -/
structure Attempt (α : Type) where
  result : Except BusError α
  takes : Nat

/-- What a retried call did. -/
structure Report (α : Type) where
  result : Except BusError α
  /-- When the operation was started, in milliseconds. -/
  calls : List Nat
  /-- When the call returned. -/
  finished : Nat
  logs : List LogRecord

namespace Report

variable {α : Type}

/-- A call that returns at once. -/
def ended (now : Nat) (result : Except BusError α) : Report α := ⟨result, [], now, []⟩

/-- Puts an attempt in front. -/
def after (start : Nat) (logs : List LogRecord) (r : Report α) : Report α :=
  { r with calls := start :: r.calls, logs := logs ++ r.logs }

end Report

/-- Whether the call is cancelled by that time. -/
def isCancelled (cancelAt : Option Nat) (now : Nat) : Bool := cancelAt.any (· ≤ now)

/-- Plays a call from the attempt of that number on, with so many attempts
left. -/
def runFrom {α : Type} (p : RetryPolicy) (operation : Nat → Attempt α) (cancelAt : Option Nat)
    (attempt now : Nat) (last : Option BusError) : (left : Nat) → Report α
  | 0 => .ended now (.error (exhausted p last))
  | left + 1 =>
    if isCancelled cancelAt now then .ended now (.error cancelled)
    else
      let a := operation attempt
      let returned := now + a.takes
      match next p attempt a.result with
      | .done result => .after now [] (.ended returned result)
      | .giveUp e =>
        .after now [failureLog p attempt e] (.ended returned (.error (exhausted p (some e))))
      | .pause e length =>
        let resumed := returned + length.ticks
        .after now [failureLog p attempt e] <|
          match cancelAt with
          | some c =>
            if c < resumed then .ended (max c returned) (.error cancelled)
            else runFrom p operation cancelAt (attempt + 1) resumed (some e) left
          | none => runFrom p operation cancelAt (attempt + 1) resumed (some e) left

/-- Plays a whole call from time zero on: the operation by the number of the
attempt, and when the call is cancelled, if it is. -/
def run {α : Type} (p : RetryPolicy) (operation : Nat → Attempt α) (cancelAt : Option Nat) :
    Report α :=
  runFrom p operation cancelAt 0 0 none p.attempts

end Retry

end PeekLock
