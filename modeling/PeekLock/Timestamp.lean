import PeekLock.Decimal.Integer

/-!
# PeekLock.Timestamp

Instants of the calendar, in nanoseconds since the start of 1970 in UTC,
and their text: date and time of the proleptic Gregorian calendar, a
fraction of the second, and a `Z`.

Message stamps print as few groups of three fraction digits as the instant
needs; `Timestamp.textNine` always prints all nine digits.
-/

namespace PeekLock

/-- An instant. -/
structure Timestamp where
  nanos : Int
  deriving DecidableEq, Repr, Inhabited

namespace Timestamp

/-- The start of 1970. -/
def epoch : Timestamp := ⟨0⟩

/-- The instant that many seconds and nanoseconds after the epoch.  Instants
whose nanoseconds do not fit 64 bits collapse to the epoch itself. -/
def ofSeconds (seconds nanos : Int) : Timestamp :=
  let total := seconds * 1000000000 + nanos
  if -9223372036854775808 ≤ total && total ≤ 9223372036854775807 then ⟨total⟩ else epoch

/-- The instant that many milliseconds after the epoch. -/
def ofMillis (n : Nat) : Timestamp := ⟨n * 1000000⟩

/-- A date of the Gregorian calendar. -/
structure Date where
  year : Int
  month : Nat
  day : Nat
  deriving DecidableEq, Repr

/-- The date that many days after the start of 1970.  Days are counted in
eras of 400 years that start on the first of March. -/
def Date.ofDays (days : Int) : Date :=
  let shifted := days + 719468
  let era := shifted.fdiv 146097
  let dayOfEra := (shifted - era * 146097).toNat
  let yearOfEra := (dayOfEra - dayOfEra / 1460 + dayOfEra / 36524 - dayOfEra / 146096) / 365
  let dayOfYear := dayOfEra - (365 * yearOfEra + yearOfEra / 4 - yearOfEra / 100)
  let shiftedMonth := (5 * dayOfYear + 2) / 153
  let day := dayOfYear - (153 * shiftedMonth + 2) / 5 + 1
  let month := if shiftedMonth < 10 then shiftedMonth + 3 else shiftedMonth - 9
  let year := (yearOfEra : Int) + era * 400 + (if month ≤ 2 then 1 else 0)
  ⟨year, month, day⟩

/-- Two digits. -/
def two (n : Nat) : String := Decimal.padded 2 n

/-- Date and time down to the second. -/
def whole (t : Timestamp) : String :=
  let seconds := t.nanos.fdiv 1000000000
  let days := seconds.fdiv 86400
  let time := (seconds - days * 86400).toNat
  let date := Date.ofDays days
  let clock := two (time / 3600) ++ ":" ++ two (time / 60 % 60) ++ ":" ++ two (time % 60)
  Decimal.padded 4 date.year.toNat ++ "-" ++ two date.month ++ "-" ++ two date.day ++ "T" ++ clock

/-- The nanoseconds beyond the whole second. -/
def subsecond (t : Timestamp) : Nat := (t.nanos.fmod 1000000000).toNat

/-- The text with no, three, six or nine fraction digits, as needed. -/
def text (t : Timestamp) : String :=
  let n := t.subsecond
  let fraction :=
    if n = 0 then ""
    else if n % 1000000 = 0 then "." ++ Decimal.padded 3 (n / 1000000)
    else if n % 1000 = 0 then "." ++ Decimal.padded 6 (n / 1000)
    else "." ++ Decimal.padded 9 n
  t.whole ++ fraction ++ "Z"

/-- The text with nine fraction digits. -/
def textNine (t : Timestamp) : String := t.whole ++ "." ++ Decimal.padded 9 t.subsecond ++ "Z"

end Timestamp

end PeekLock
