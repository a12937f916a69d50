import PeekLock.Decimal.Integer

/-!
# PeekLock.Decimal.Double

Doubles read from decimal text.

The accepted texts are an optional sign, then `inf`, `infinity` or `nan` in
any case, or digits with an optional point and an optional exponent; at
least one digit must stand before or behind the point.  The value is the
double nearest to the decimal, a tie to the even one; a decimal beyond
the finite range is infinite.
-/

namespace PeekLock.Decimal

/-- Decimals from `10^400` on are infinite and those below `10^-400` zero,
whatever their digits. -/
def magnitudeLimit : Int := 400

/-- The double nearest to `significand × 10^exponent`. -/
def nearest (significand : Nat) (exponent : Int) : Float :=
  if significand = 0 then 0
  else
    let top := exponent + ((Nat.toDigits 10 significand).length : Int)
    if magnitudeLimit < top then Float.ofBits 0x7FF0000000000000
    else if top < -magnitudeLimit then 0
    else if 0 ≤ exponent then Float.ofScientific significand false exponent.toNat
    else Float.ofScientific significand true (-exponent).toNat

/-- An ASCII letter in lower case; any other character as it is. -/
def lowerLetter (c : Char) : Char :=
  if 'A' ≤ c && c ≤ 'Z' then Char.ofNat (c.toNat + 32) else c

/-- An exponent: empty, or `e` with an optional sign and digits. -/
def exponent? : List Char → Option Int
  | [] => some 0
  | c :: rest =>
    if lowerLetter c ≠ 'e' then none
    else
      match rest with
      | '-' :: digits => (digits? digits).map fun n => -(n : Int)
      | '+' :: digits => (digits? digits).map fun n => (n : Int)
      | digits => (digits? digits).map fun n => (n : Int)

/-- A number without a sign. -/
def unsigned? (cs : List Char) : Option Float :=
  let whole := cs.takeWhile Char.isDigit
  let behind := cs.dropWhile Char.isDigit
  let (fraction, tail) := match behind with
    | '.' :: more => (more.takeWhile Char.isDigit, more.dropWhile Char.isDigit)
    | _ => ([], behind)
  if whole.isEmpty && fraction.isEmpty then none
  else
    (exponent? tail).map fun e =>
      nearest (digitsValue 0 (whole ++ fraction)) (e - fraction.length)

/-- A special value or a number, without a sign. -/
def magnitude? (cs : List Char) : Option Float :=
  let word := String.ofList (cs.map lowerLetter)
  if word = "inf" || word = "infinity" then some (Float.ofBits 0x7FF0000000000000)
  else if word = "nan" then some (Float.ofBits 0x7FF8000000000000)
  else unsigned? cs

/-- A double with an optional sign. -/
def double? : List Char → Option Float
  | '-' :: rest => (magnitude? rest).map fun x => -x
  | '+' :: rest => magnitude? rest
  | cs => magnitude? cs

/-- The double nearest to a number of at most 64 bits. -/
def ofInt (n : Int) : Float :=
  if n < 0 then -n.natAbs.toUInt64.toFloat else n.natAbs.toUInt64.toFloat

end PeekLock.Decimal
