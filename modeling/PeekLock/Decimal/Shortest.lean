/-!
# PeekLock.Decimal.Shortest

The shortest decimal text of a double.

A finite double stands for all reals that round to it.  Of the decimals in
that interval the shortest are those with the fewest digits, and of these
the nearest to the double itself is taken.  `shortest` finds it in exact
arithmetic on natural numbers: for one digit, two digits and so on it
looks at the two neighbours of the value on that decimal grid, and the
first grid with a neighbour inside the interval wins.  Seventeen digits
always suffice.

Two layouts write the digits down.  `plain` never uses an exponent;
`scientific` writes numbers below `10⁻⁵` and from `10¹⁶` on with a signed
exponent, and keeps a `.0` on whole numbers.
-/

namespace PeekLock.Decimal

/-- The decimal `0.d₁d₂…dₙ × 10^point` with digits `d₁ … dₙ`. -/
structure Digits where
  /-- The digits, the first one not zero unless the value is. -/
  digits : List Nat
  /-- Where the point stands, counted from the front of the digits. -/
  point : Int
  deriving Repr, DecidableEq

/-- A positive finite double as `mantissa × 2^exponent`, with the lower
half-gap flag: at a power of two the next smaller double is only half as
far away as the next larger one. -/
structure Binary where
  mantissa : Nat
  exponent : Int
  narrowBelow : Bool

/-- The parts of a double's bits, its sign left out. -/
def Binary.ofBits (bits : UInt64) : Binary :=
  let fraction : Nat := bits.toNat % Nat.pow 2 52
  let biased : Nat := bits.toNat / Nat.pow 2 52 % 2048
  if biased = 0 then ⟨fraction, -1074, false⟩
  else ⟨Nat.pow 2 52 + fraction, (biased : Int) - 1075, fraction = 0 && 1 < biased⟩

/-- `n × 2^e` or `n × 10^e` as a fraction of natural numbers. -/
def scaled (n base : Nat) (e : Int) : Nat × Nat :=
  if 0 ≤ e then (n * base.pow e.toNat, 1) else (n, base.pow (-e).toNat)

/-- The decimal exponent of a positive fraction: the `k` with
`10^(k-1) ≤ num/den < 10^k`, found by stepping from a guess. -/
def decimalPoint (num den : Nat) : Int :=
  let guess : Int := ((num.log2 : Int) - (den.log2 : Int)) * 30103 / 100000
  let reaches (k : Int) : Bool :=
    let (up, down) := scaled 1 10 k
    up * den ≤ num * down
  if reaches (guess + 2) then guess + 3
  else if reaches (guess + 1) then guess + 2
  else if reaches guess then guess + 1
  else if reaches (guess - 1) then guess
  else guess - 1

/-- The interval of a double, as fractions over one denominator. -/
structure Interval where
  /-- Four times the value, scaled by the denominator. -/
  value : Nat
  low : Nat
  high : Nat
  denominator : Nat
  /-- Whether the two ends round to the double themselves. -/
  closed : Bool

/-- The reals that round to a double. -/
def Binary.interval (b : Binary) : Interval :=
  let (num, den) := scaled 1 2 b.exponent
  { value := 4 * b.mantissa * num
    low := (4 * b.mantissa - (if b.narrowBelow then 1 else 2)) * num
    high := (4 * b.mantissa + 2) * num
    denominator := 4 * den
    closed := b.mantissa % 2 = 0 }

/-- Whether the fraction `n/d` lies in an interval. -/
def Interval.contains (i : Interval) (n d : Nat) : Bool :=
  if i.closed then i.low * d ≤ n * i.denominator && n * i.denominator ≤ i.high * d
  else i.low * d < n * i.denominator && n * i.denominator < i.high * d

/-- The neighbour of the value on the grid `10^(point - count)` that lies in
the interval, the nearer one if both do. -/
def Interval.onGrid (i : Interval) (point : Int) (count : Nat) : Option Nat :=
  let (unit, parts) := scaled 1 10 (point - count)
  let below := i.value * parts / (i.denominator * unit)
  let fits (n : Nat) : Bool := i.contains (n * unit) parts
  let rest := i.value * parts - below * i.denominator * unit
  let lower := fits below
  let upper := fits (below + 1)
  if lower && upper then
    let twice := 2 * rest
    let whole := i.denominator * unit
    if twice < whole || (twice = whole && below % 2 = 0) then some below else some (below + 1)
  else if lower then some below
  else if upper then some (below + 1)
  else none

/-- Drops the zeros at the end of a list of digits. -/
def dropTrailingZeros (digits : List Nat) : List Nat :=
  (digits.reverse.dropWhile (· = 0)).reverse

/-- The decimal digits of a number, the first one first. -/
def digitList (n : Nat) : List Nat := (Nat.toDigits 10 n).map fun c => c.toNat - 48

/-- The first grid, from `count` digits on, that has a point in the interval. -/
def Interval.search (i : Interval) (point : Int) : (fuel count : Nat) → Digits
  | 0, count =>
    let (unit, parts) := scaled 1 10 (point - count)
    let ds := digitList (i.value * parts / (i.denominator * unit))
    ⟨ds, point⟩
  | fuel + 1, count =>
    match i.onGrid point count with
    | some n =>
      let ds := digitList n
      ⟨dropTrailingZeros ds, point + ((ds.length : Int) - count)⟩
    | none => i.search point fuel (count + 1)

/-- The shortest digits of a finite double, its sign left out. -/
def shortest (x : Float) : Digits :=
  let b := Binary.ofBits x.toBits
  if b.mantissa = 0 then ⟨[0], 1⟩
  else
    let i := b.interval
    i.search (decimalPoint i.value i.denominator) 17 1

/-- Whether the sign bit of a double is set. -/
def isNegative (x : Float) : Bool := UInt64.size / 2 ≤ x.toBits.toNat

/-- The characters of some digits. -/
def digitChars (digits : List Nat) : List Char := digits.map Nat.digitChar

/-- The digits in positional notation, a point only where digits follow it. -/
def Digits.positional (d : Digits) : List Char :=
  if d.point ≤ 0 then
    ['0', '.'] ++ List.replicate (-d.point).toNat '0' ++ digitChars d.digits
  else if d.digits.length ≤ d.point.toNat then
    digitChars d.digits ++ List.replicate (d.point.toNat - d.digits.length) '0'
  else
    digitChars (d.digits.take d.point.toNat) ++ '.' :: digitChars (d.digits.drop d.point.toNat)

/-- The digits with one of them in front of the point and an exponent behind. -/
def Digits.exponential (d : Digits) : List Char :=
  let mantissa := match d.digits with
    | [] => ['0']
    | [a] => digitChars [a]
    | a :: rest => digitChars [a] ++ '.' :: digitChars rest
  let e := d.point - 1
  mantissa ++ 'e' :: (if e < 0 then '-' else '+') :: (toString e.natAbs).toList

/-- A double without an exponent, `NaN`, `inf` or `-inf`; whole numbers
have no point. -/
def plain (x : Float) : String :=
  if x.isNaN then "NaN"
  else
    let sign := if isNegative x then "-" else ""
    if x.isInf then sign ++ "inf" else sign ++ String.ofList (shortest x).positional

/-- A finite double with an exponent outside `10⁻⁵ … 10¹⁶`, and with `.0`
on whole numbers inside. -/
def scientific (x : Float) : String :=
  let d := shortest x
  let body :=
    if d.point < -4 || 16 < d.point then d.exponential
    else if d.digits.length ≤ d.point.toNat then d.positional ++ ['.', '0']
    else d.positional
  (if isNegative x then "-" else "") ++ String.ofList body

end PeekLock.Decimal
