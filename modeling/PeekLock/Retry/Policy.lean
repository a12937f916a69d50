import PeekLock.Duration

/-!
# PeekLock.Retry.Policy

How often a failing call is repeated, and how long to wait in between.

The delay grows by a constant factor from attempt to attempt, up to a
limit.  It is computed in doubles — the factor by repeated squaring — and
rounded to a whole nanosecond at the end.  A factor below one, or one that
is no number, counts as one.
-/

namespace PeekLock

/-- When to try again. -/
structure RetryPolicy where
  /-- How many attempts are made at most, the first one included; zero counts
  as one. -/
  maxAttempts : Nat
  /-- The delay after the first failure. -/
  initialDelay : Duration
  /-- The longest delay. -/
  maxDelay : Duration
  /-- The growth from one delay to the next. -/
  multiplier : Float
  deriving DecidableEq, Inhabited

namespace RetryPolicy

/-- Three attempts, the delays doubling from 100 ms up to 5 s. -/
def default : RetryPolicy := ⟨3, .ofMillis 100, .ofSeconds 5, 2.0⟩

/-- The larger of two doubles; one that is no number does not count. -/
def larger (x y : Float) : Float :=
  if x.isNaN then y else if y.isNaN then x else if x < y then y else x

/-- The smaller of two doubles; one that is no number does not count. -/
def smaller (x y : Float) : Float :=
  if x.isNaN then y else if y.isNaN then x else if y < x then y else x

/-- `acc × x^n`, by squaring `x` for each further binary digit of `n`. -/
def powerFrom (acc x : Float) (n : Nat) : Float :=
  let acc := if n % 2 = 1 then acc * x else acc
  if n / 2 = 0 then acc else powerFrom acc (x * x) (n / 2)
termination_by n
decreasing_by omega

/-- `x^n`. -/
def power (x : Float) (n : Nat) : Float := powerFrom 1.0 x n

/-- The largest exponent that the growth is computed for. -/
def maxExponent : Nat := 2147483647

/-- The delay after the failed attempt of that number, counted from zero.
Nothing if the limit is too long for a span of 64-bit seconds. -/
def delay? (p : RetryPolicy) (attempt : Nat) : Option Duration :=
  let factor := power (larger p.multiplier 1.0) (min attempt maxExponent)
  let capped := smaller (p.initialDelay.toFloat * factor) p.maxDelay.toFloat
  Duration.ofFloat? (larger capped 0.0)

/-- How many attempts are made at most. -/
def attempts (p : RetryPolicy) : Nat := max 1 p.maxAttempts

end RetryPolicy

end PeekLock
