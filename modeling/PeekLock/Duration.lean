import PeekLock.Decimal.Rounded

/-!
# PeekLock.Duration

Spans of time, in whole nanoseconds.

Timers work on milliseconds: a span that is not a whole number of them is
waited out to the next one (`Duration.ticks`).  `Duration.text` is the
short text of a span in log lines, in the largest unit that is not below
one, with the fraction's zeros at the end left out.
-/

namespace PeekLock

/-- A span of time. -/
structure Duration where
  nanos : Nat
  deriving DecidableEq, Repr, Inhabited

namespace Duration

/-- Nanoseconds in a second. -/
def perSecond : Nat := 1000000000

/-- Nanoseconds in a millisecond. -/
def perMilli : Nat := 1000000

/-- A number of seconds. -/
def ofSeconds (n : Nat) : Duration := ⟨n * perSecond⟩

/-- A number of milliseconds. -/
def ofMillis (n : Nat) : Duration := ⟨n * perMilli⟩

/-- The whole seconds of a span. -/
def seconds (d : Duration) : Nat := d.nanos / perSecond

/-- The nanoseconds beyond the whole seconds. -/
def subsecond (d : Duration) : Nat := d.nanos % perSecond

/-- The empty span. -/
def zero : Duration := ⟨0⟩

/-- Whether a span is empty. -/
def isZero (d : Duration) : Bool := d.nanos = 0

/-- The shorter of two spans. -/
def min (a b : Duration) : Duration := if a.nanos ≤ b.nanos then a else b

/-- How many milliseconds a timer waits for the span to be over. -/
def ticks (d : Duration) : Nat := (d.nanos + (perMilli - 1)) / perMilli

theorem ticks_ofMillis (n : Nat) : (ofMillis n).ticks = n := by
  simp only [ticks, ofMillis, perMilli]
  omega

/-- A timer never waits too short. -/
theorem nanos_le_ticks (d : Duration) : d.nanos ≤ d.ticks * perMilli := by
  simp only [ticks, perMilli]
  omega

/-- The whole milliseconds of a span. -/
def millis (d : Duration) : Nat := d.nanos / perMilli

/-- `whole` and a fraction of `unit` parts, the zeros at its end left out. -/
def withFraction (whole fraction unit : Nat) : String :=
  let digits := (toString (unit + fraction)).toList.drop 1
  let kept := (digits.reverse.dropWhile (· = '0')).reverse
  if kept.isEmpty then toString whole else toString whole ++ "." ++ String.ofList kept

/-- The text of a span in a log line. -/
def text (d : Duration) : String :=
  if perSecond ≤ d.nanos then withFraction d.seconds d.subsecond perSecond ++ "s"
  else if perMilli ≤ d.nanos then
    withFraction (d.nanos / perMilli) (d.nanos % perMilli) perMilli ++ "ms"
  else if 1000 ≤ d.nanos then withFraction (d.nanos / 1000) (d.nanos % 1000) 1000 ++ "µs"
  else toString d.nanos ++ "ns"

/-- The span in seconds, as a double: the seconds and the fraction are
rounded on their own before they are added. -/
def toFloat (d : Duration) : Float :=
  d.seconds.toUInt64.toFloat + d.subsecond.toUInt64.toFloat / 1e9

/-- The span of a number of seconds, to the nearest nanosecond with a half to
the even one; nothing for a negative number, for one that is no number, and
when the whole seconds do not fit 64 bits. -/
def ofFloat? (x : Float) : Option Duration :=
  if x.isNaN || x.isInf || x < 0.0 then none
  else
    let d : Duration := ⟨Decimal.scaleRound perSecond x⟩
    if d.seconds < UInt64.size then some d else none

end Duration

end PeekLock
