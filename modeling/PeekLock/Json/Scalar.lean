import PeekLock.Decimal.Integer
import PeekLock.Json.Fault
import PeekLock.Json.Value
import PeekLock.Text.Utf8

/-!
# PeekLock.Json.Scalar

The parts of JSON text that do not nest: blanks, words, numbers and
strings, each as a function from the unread bytes to a value and the bytes
behind it.

Numbers without point and exponent that fit 64 bits are integers; `-0`
and everything else is a double.  A double is computed from the first
digits that fit 64 bits by one multiplication or division by a power of
ten (more than one below `10^-308`), so its last bit need not be that of
the nearest double.  A double that overflows is refused.

Strings must be UTF-8 and must not hold control characters; surrogates
are accepted only as escaped pairs.
-/

namespace PeekLock.Json.Reader

/-- What a reading function answers: a value and the unread bytes, or a fault. -/
abbrev Reading (α : Type) := Except Fault (α × List UInt8)

/-- The four blanks between tokens. -/
def isSpace (b : UInt8) : Bool := b = 0x20 || b = 0x0A || b = 0x09 || b = 0x0D

/-- Skips blanks. -/
def skipBlanks (bytes : List UInt8) : List UInt8 := bytes.dropWhile isSpace

/-- The byte of an ASCII character. -/
def byte (c : Char) : UInt8 := UInt8.ofNat c.toNat

/-- Reads the rest of a word such as `null`. -/
def word : (expected bytes : List UInt8) → Except Fault (List UInt8)
  | [], rest => .ok rest
  | _ :: _, [] => .error (.before .endInValue [])
  | e :: es, b :: rest => if b = e then word es rest else .error (.before .brokenWord rest)

/-- The word `null` without its first letter. -/
def nullTail : List UInt8 := [byte 'u', byte 'l', byte 'l']

/-- The word `true` without its first letter. -/
def trueTail : List UInt8 := [byte 'r', byte 'u', byte 'e']

/-- The word `false` without its first letter. -/
def falseTail : List UInt8 := [byte 'a', byte 'l', byte 's', byte 'e']

/-! ## Numbers -/

/-- Whether a byte is a digit. -/
def isDigit (b : UInt8) : Bool := 0x30 ≤ b && b ≤ 0x39

/-- The value of a digit. -/
def digit (b : UInt8) : Nat := b.toNat - 0x30

/-- Digits in front of the point, behind the number read so far: the number,
how many digits did not fit 64 bits any more, and the unread bytes. -/
def wholeDigits (n : Nat) : List UInt8 → Nat × Nat × List UInt8
  | [] => (n, 0, [])
  | b :: rest =>
    if isDigit b then
      if n * 10 + digit b ≤ Decimal.maxU64 then wholeDigits (n * 10 + digit b) rest
      else (n, (b :: rest).takeWhile isDigit |>.length, (b :: rest).dropWhile isDigit)
    else (n, 0, b :: rest)

/-- Digits behind the point: the number, how many digits it took, whether
the others were dropped because they did not fit, and the unread bytes. -/
def fractionDigits (n taken : Nat) : List UInt8 → Nat × Nat × Bool × List UInt8
  | [] => (n, taken, false, [])
  | b :: rest =>
    if isDigit b then
      if n * 10 + digit b ≤ Decimal.maxU64 then fractionDigits (n * 10 + digit b) (taken + 1) rest
      else (n, taken, true, (b :: rest).dropWhile isDigit)
    else (n, taken, false, b :: rest)

/-- The powers of ten that a double reaches. -/
def tenTo (n : Nat) : Float := Float.ofScientific 1 false n

/-- `x × 10^e`, or nothing if it overflows. -/
def scale (x : Float) (e : Int) : Option Float :=
  if e < -308 then
    if x == 0 then some x else scale (x / tenTo 308) (e + 308)
  else if 308 < e then
    if x == 0 then some x else none
  else if 0 ≤ e then
    let y := x * tenTo e.toNat
    if y.isInf then none else some y
  else some (x / tenTo (-e).toNat)
termination_by (-e).toNat

/-- The double `±n × 10^e`, which is refused at `rest` if it overflows. -/
def double? (negative : Bool) (n : Nat) (e : Int) (rest : List UInt8) : Reading Number :=
  match scale n.toUInt64.toFloat e with
  | some x => .ok (.double (if negative then -x else x), rest)
  | none => .error (.before .numberOutOfRange rest)

/-- The largest exponent that is read digit by digit. -/
def maxExponent : Nat := 2147483647

/-- The further digits of an exponent.  Past `maxExponent` only the sign of
the exponent counts: the answer is then `none`, with the bytes behind the
digit that was too much. -/
def exponentDigits (e : Nat) : List UInt8 → Option Nat × List UInt8
  | [] => (some e, [])
  | b :: rest =>
    if isDigit b then
      if e * 10 + digit b ≤ maxExponent then exponentDigits (e * 10 + digit b) rest
      else (none, rest)
    else (some e, b :: rest)

/-- A number from its exponent on, the bytes starting behind the `e`. -/
def exponent (negative : Bool) (n : Nat) (start : Int) (bytes : List UInt8) : Reading Number :=
  let (falling, rest) := match bytes with
    | 0x2B :: rest => (false, rest)
    | 0x2D :: rest => (true, rest)
    | _ => (false, bytes)
  match rest with
  | [] => .error (.before .endInValue [])
  | b :: rest =>
    if !isDigit b then .error (.before .invalidNumber rest)
    else
      match exponentDigits (digit b) rest with
      | (some e, rest) => double? negative n (if falling then start - e else start + e) rest
      | (none, rest) =>
        if n ≠ 0 && !falling then .error (.before .numberOutOfRange rest)
        else .ok (.double (if negative then -0.0 else 0.0), rest.dropWhile isDigit)

/-- Whether a byte starts an exponent. -/
def isExponentMark (b : UInt8) : Bool := b = 0x65 || b = 0x45

/-- A number from its fraction on, the bytes starting behind the point. -/
def fraction (negative : Bool) (n : Nat) (start : Int) (bytes : List UInt8) : Reading Number :=
  let (n, taken, dropped, rest) := fractionDigits n 0 bytes
  if taken = 0 && !dropped then
    match rest with
    | [] => .error (.before .endInValue [])
    | _ => .error (.peeking .invalidNumber rest)
  else
    match rest with
    | b :: tail =>
      if isExponentMark b then exponent negative n (start - taken) tail
      else double? negative n (start - taken) rest
    | [] => double? negative n (start - taken) rest

/-- An integer that fits 64 bits is kept; the others, and `-0`, are doubles. -/
def wholeNumber (negative : Bool) (n : Nat) : Number :=
  if !negative then .integer n
  else if n = 0 || Decimal.maxI64 + 1 < n then .double (-n.toUInt64.toFloat)
  else .integer (-(n : Int))

/-- A number behind its digits in front of the point, of which `dropped` did
not fit. -/
def afterWhole (negative : Bool) (n dropped : Nat) (bytes : List UInt8) : Reading Number :=
  match bytes with
  | b :: rest =>
    if b = 0x2E then fraction negative n dropped rest
    else if isExponentMark b then exponent negative n dropped rest
    else if dropped = 0 then .ok (wholeNumber negative n, bytes)
    else double? negative n dropped bytes
  | [] =>
    if dropped = 0 then .ok (wholeNumber negative n, [])
    else double? negative n dropped []

/-- A number behind its sign. -/
def numeral (negative : Bool) : List UInt8 → Reading Number
  | [] => .error (.before .endInValue [])
  | b :: rest =>
    if b = 0x30 then
      match rest with
      | d :: _ =>
        if isDigit d then .error (.peeking .invalidNumber rest) else afterWhole negative 0 0 rest
      | [] => afterWhole negative 0 0 rest
    else if isDigit b then
      let (n, dropped, rest) := wholeDigits (digit b) rest
      afterWhole negative n dropped rest
    else .error (.before .invalidNumber rest)

/-! ## Strings -/

/-- The value of a hexadecimal digit. -/
def hexDigit? (b : UInt8) : Option Nat :=
  if 0x30 ≤ b && b ≤ 0x39 then some (b.toNat - 0x30)
  else if 0x61 ≤ b && b ≤ 0x66 then some (b.toNat - 0x61 + 10)
  else if 0x41 ≤ b && b ≤ 0x46 then some (b.toNat - 0x41 + 10)
  else none

/-- Four hexadecimal digits. -/
def hexEscape : List UInt8 → Reading Nat
  | a :: b :: c :: d :: rest =>
    match hexDigit? a, hexDigit? b, hexDigit? c, hexDigit? d with
    | some a, some b, some c, some d => .ok (((a * 16 + b) * 16 + c) * 16 + d, rest)
    | _, _, _, _ => .error (.before .invalidEscape rest)
  | _ => .error (.before .endInString [])

/-- The second half of an escaped surrogate pair, whose first half is `high`. -/
def lowSurrogate (high : Nat) : List UInt8 → Reading Char
  | [] => .error (.before .endInString [])
  | 0x5C :: rest =>
    match rest with
    | [] => .error (.before .endInString [])
    | 0x75 :: rest =>
      match hexEscape rest with
      | .error f => .error f
      | .ok (low, rest) =>
        if 0xDC00 ≤ low && low ≤ 0xDFFF then
          .ok (Char.ofNat ((high - 0xD800) * 1024 + (low - 0xDC00) + 0x10000), rest)
        else .error (.before .loneSurrogate rest)
    | _ :: rest => .error (.before .unfinishedSurrogate rest)
  | _ :: rest => .error (.before .unfinishedSurrogate rest)

/-- The character of an escape, the bytes starting behind the backslash. -/
def escaped : List UInt8 → Reading Char
  | [] => .error (.before .endInString [])
  | b :: rest =>
    if b = 0x22 then .ok ('"', rest)
    else if b = 0x5C then .ok ('\\', rest)
    else if b = 0x2F then .ok ('/', rest)
    else if b = 0x62 then .ok ('\x08', rest)
    else if b = 0x66 then .ok ('\x0c', rest)
    else if b = 0x6E then .ok ('\n', rest)
    else if b = 0x72 then .ok ('\r', rest)
    else if b = 0x74 then .ok ('\t', rest)
    else if b = 0x75 then
      match hexEscape rest with
      | .error f => .error f
      | .ok (n, rest) =>
        if 0xDC00 ≤ n && n ≤ 0xDFFF then .error (.before .loneSurrogate rest)
        else if 0xD800 ≤ n && n ≤ 0xDBFF then lowSurrogate n rest
        else .ok (Char.ofNat n, rest)
    else .error (.before .invalidEscape rest)

/-- The characters of a string up to its closing quote, behind the ones read
so far (last one first).  `broken` is the first place where the bytes were
not UTF-8, as the bytes unread there; it is reported only at the closing
quote, so every other fault comes first.  The number bounds the steps; the
count of unread bytes is always enough. -/
def characters : (fuel : Nat) → (broken : Option Nat) → (behind : List Char) → List UInt8 →
    Reading String
  | 0, _, _, _ => .error (.before .endInString [])
  | _ + 1, _, _, [] => .error (.before .endInString [])
  | fuel + 1, broken, behind, b :: rest =>
    if b = 0x22 then
      match broken with
      | some unread => .error ⟨.invalidCodePoint, unread⟩
      | none => .ok (String.ofList behind.reverse, rest)
    else if b = 0x5C then
      match escaped rest with
      | .error f => .error f
      | .ok (c, rest) => characters fuel broken (c :: behind) rest
    else if b < 0x20 then .error (.before .controlCharacter rest)
    else
      match Text.Utf8.next (b :: rest) with
      | .scalar c rest => characters fuel broken (c :: behind) rest
      | .broken tail => characters fuel (some (broken.getD rest.length)) behind tail
      | .done => .error (.before .endInString [])

/-- A string behind its opening quote. -/
def stringTail (bytes : List UInt8) : Reading String :=
  characters (bytes.length + 1) none [] bytes

end PeekLock.Json.Reader
