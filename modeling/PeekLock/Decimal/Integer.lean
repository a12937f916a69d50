/-!
# PeekLock.Decimal.Integer

Integers written in decimal digits.

Two readers: `nat?` takes digits and an optional plus sign, `int?` also a
minus sign.  Neither skips blanks, and both refuse a value outside the
bounds that they are given, however long its digits are.  `padded` writes
a number with at least so many digits.
-/

namespace PeekLock.Decimal

/-- The value of a digit. -/
def digitValue (c : Char) : Nat := c.toNat - 48

/-- The value of a run of digits, continuing `value`. -/
def digitsValue (value : Nat) (digits : List Char) : Nat :=
  digits.foldl (fun n c => n * 10 + digitValue c) value

/-- A non-empty run of digits. -/
def digits? (cs : List Char) : Option Nat :=
  if cs.isEmpty || !cs.all Char.isDigit then none else some (digitsValue 0 cs)

/-- An unsigned number of at most `limit`, with an optional plus sign. -/
def nat? (limit : Nat) (cs : List Char) : Option Nat :=
  let unsigned := match cs with
    | '+' :: rest => digits? rest
    | _ => digits? cs
  unsigned.filter (· ≤ limit)

/-- A signed number between `-limit - 1` and `limit`, with an optional sign. -/
def int? (limit : Nat) (cs : List Char) : Option Int :=
  let signed : Option Int := match cs with
    | '-' :: rest => (digits? rest).map fun n => -(n : Int)
    | '+' :: rest => (digits? rest).map fun n => (n : Int)
    | _ => (digits? cs).map fun n => (n : Int)
  signed.filter fun i => -(limit : Int) - 1 ≤ i && i ≤ limit

/-- The largest unsigned number of 32 bits. -/
def maxU32 : Nat := 4294967295

/-- The largest unsigned number of 64 bits. -/
def maxU64 : Nat := 18446744073709551615

/-- The largest signed number of 64 bits. -/
def maxI64 : Nat := 9223372036854775807

/-- The digits of `n`, with zeros in front up to the given width. -/
def padded (width n : Nat) : String :=
  let text := toString n
  String.ofList (List.replicate (width - text.length) '0') ++ text

/-- The hexadecimal digits of `n`, with zeros in front up to the given width. -/
def paddedHex (width n : Nat) : String :=
  let digits := Nat.toDigits 16 n
  String.ofList (List.replicate (width - digits.length) '0' ++ digits)

end PeekLock.Decimal
