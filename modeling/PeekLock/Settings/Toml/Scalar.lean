import PeekLock.Decimal.Double
import PeekLock.Settings.Node

/-!
# PeekLock.Settings.Toml.Scalar

The scalars of TOML: strings in four spellings, and words.

A word is a run of letters, digits and `+ - . : _`; it stands for a truth
value, a number or a date.  Digits may be grouped by single underscores,
whole numbers have 64 bits and do not start with a zero, and dates must
exist in the calendar.  Dates are kept as text, with `T` between the day
and the time, `Z` for the zero meridian and no zeros at the end of the
fraction.
-/

namespace PeekLock.Settings.Toml

/-! ## Strings -/

/-- The control characters that may stand nowhere; a tab may. -/
def isForbidden (c : Char) : Bool := (c.toNat < 0x20 && c ≠ '\t') || c.toNat = 0x7F

/-- The value of a hexadecimal digit. -/
def hexDigit? (c : Char) : Option Nat :=
  if c.isDigit then some (c.toNat - 48)
  else if 'a' ≤ c && c ≤ 'f' then some (c.toNat - 87)
  else if 'A' ≤ c && c ≤ 'F' then some (c.toNat - 55)
  else none

/-- The value of a run of hexadecimal digits. -/
def hexValue? (cs : List Char) : Option Nat :=
  cs.foldlM (fun n c => (hexDigit? c).map fun d => n * 16 + d) 0

/-- The character with a code point, if there is one. -/
def scalarValue? (n : Nat) : Option Char := if n.isValidChar then some (Char.ofNat n) else none

/-- The character that `count` hexadecimal digits stand for. -/
def codePoint? (count : Nat) (cs : List Char) : Option (Char × List Char) :=
  if cs.length < count then none
  else do
    let n ← hexValue? (cs.take count)
    let c ← scalarValue? n
    return (c, cs.drop count)

/-- An escape behind its backslash. -/
def escape? : List Char → Option (Char × List Char)
  | 'b' :: rest => some ('\x08', rest)
  | 't' :: rest => some ('\t', rest)
  | 'n' :: rest => some ('\n', rest)
  | 'f' :: rest => some ('\x0c', rest)
  | 'r' :: rest => some ('\r', rest)
  | '"' :: rest => some ('"', rest)
  | '\\' :: rest => some ('\\', rest)
  | 'u' :: rest => codePoint? 4 rest
  | 'U' :: rest => codePoint? 8 rest
  | _ => none

/-- A string in double quotes, behind the first one. -/
def basicTail : (fuel : Nat) → (behind : List Char) → List Char → Option (String × List Char)
  | 0, _, _ => none
  | _, _, [] => none
  | fuel + 1, behind, c :: rest =>
    if c = '"' then some (String.ofList behind.reverse, rest)
    else if c = '\\' then
      match escape? rest with
      | some (c, rest) => basicTail fuel (c :: behind) rest
      | none => none
    else if isForbidden c then none
    else basicTail fuel (c :: behind) rest

/-- A string in single quotes, behind the first one. -/
def literalTail : (behind : List Char) → List Char → Option (String × List Char)
  | _, [] => none
  | behind, c :: rest =>
    if c = '\'' then some (String.ofList behind.reverse, rest)
    else if isForbidden c then none
    else literalTail (c :: behind) rest

/-- The text without a line break at its front. -/
def dropBreak : List Char → List Char
  | '\n' :: rest => rest
  | '\r' :: '\n' :: rest => rest
  | cs => cs

/-- The text without the blanks and line breaks at its front. -/
def dropSpace : List Char → List Char
  | ' ' :: rest | '\t' :: rest | '\n' :: rest => dropSpace rest
  | '\r' :: '\n' :: rest => dropSpace rest
  | cs => cs

/-- Whether the line ends behind some blanks. -/
def endsLine (cs : List Char) : Bool :=
  match cs.dropWhile fun c => c = ' ' || c = '\t' with
  | '\n' :: _ => true
  | '\r' :: '\n' :: _ => true
  | _ => false

/-- A string in three quotes, behind them.  Up to two quotes may stand in front
of the closing three.  With `escapes`, a backslash starts an escape, and at
the end of a line it swallows the break and all space behind it. -/
def longTail (quote : Char) (escapes : Bool) :
    (fuel : Nat) → (behind : List Char) → List Char → Option (String × List Char)
  | 0, _, _ => none
  | _, _, [] => none
  | fuel + 1, behind, c :: rest =>
    if c = quote then
      let quotes := (c :: rest).takeWhile (· = quote)
      let after := (c :: rest).drop quotes.length
      if quotes.length < 3 then longTail quote escapes fuel (quotes ++ behind) after
      else if 5 < quotes.length then none
      else some (String.ofList (behind.reverse ++ quotes.drop 3), after)
    else if c = '\\' && escapes then
      if endsLine rest then longTail quote escapes fuel behind (dropSpace rest)
      else
        match escape? rest with
        | some (c, rest) => longTail quote escapes fuel (c :: behind) rest
        | none => none
    else if c = '\n' then longTail quote escapes fuel ('\n' :: behind) rest
    else if c = '\r' then
      match rest with
      | '\n' :: rest => longTail quote escapes fuel ('\n' :: behind) rest
      | _ => none
    else if isForbidden c then none
    else longTail quote escapes fuel (c :: behind) rest

/-- A string in any spelling. -/
def string? (cs : List Char) : Option (String × List Char) :=
  match cs with
  | '"' :: '"' :: '"' :: rest => longTail '"' true (cs.length + 1) [] (dropBreak rest)
  | '\'' :: '\'' :: '\'' :: rest => longTail '\'' false (cs.length + 1) [] (dropBreak rest)
  | '"' :: rest => basicTail (cs.length + 1) [] rest
  | '\'' :: rest => literalTail [] rest
  | _ => none

/-! ## Numbers -/

/-- Digits without the underscores between them. -/
def grouped? (isDigit : Char → Bool) : List Char → Option (List Char)
  | [] => none
  | [c] => if isDigit c then some [c] else none
  | c :: '_' :: rest =>
    if isDigit c then (grouped? isDigit rest).map (c :: ·) else none
  | c :: rest => if isDigit c then (grouped? isDigit rest).map (c :: ·) else none

/-- A number's sign and the rest of it. -/
def signed : List Char → Bool × List Char
  | '-' :: rest => (true, rest)
  | '+' :: rest => (false, rest)
  | cs => (false, cs)

/-- The digits of a whole number, which does not start with a zero. -/
def wholeDigits? (cs : List Char) : Option (List Char) :=
  (grouped? Char.isDigit cs).filter fun
    | '0' :: _ :: _ => false
    | _ => true

/-- A whole number in a base other than ten. -/
def based? (base : Nat) (cs : List Char) : Option Nat := do
  let digits ← grouped? (fun c => (hexDigit? c).any (· < base)) cs
  return digits.foldl (fun n c => n * base + (hexDigit? c).getD 0) 0

/-- A whole number of 64 bits. -/
def integer? (cs : List Char) : Option Int :=
  let limited (n : Nat) : Option Int := if n ≤ Decimal.maxI64 then some n else none
  match cs with
  | '0' :: 'x' :: rest => (based? 16 rest).bind limited
  | '0' :: 'o' :: rest => (based? 8 rest).bind limited
  | '0' :: 'b' :: rest => (based? 2 rest).bind limited
  | _ =>
    let (negative, rest) := signed cs
    (wholeDigits? rest).bind fun digits =>
      Decimal.int? Decimal.maxI64 (if negative then '-' :: digits else digits)

/-- The exponent of a number behind its mark. -/
def exponent? (cs : List Char) : Option Int :=
  let (negative, rest) := signed cs
  (grouped? Char.isDigit rest).map fun digits =>
    if negative then -(Decimal.digitsValue 0 digits : Int) else Decimal.digitsValue 0 digits

/-- A number with a fraction or an exponent, without a sign. -/
def magnitude? (cs : List Char) : Option Float :=
  let whole := cs.takeWhile fun c => c.isDigit || c = '_'
  let behind := cs.drop whole.length
  let fraction := match behind with
    | '.' :: rest => rest.takeWhile fun c => c.isDigit || c = '_'
    | _ => []
  let tail := match behind with
    | '.' :: rest => rest.drop fraction.length
    | _ => behind
  do
    let wholeDigits ← wholeDigits? whole
    let fractionDigits ← if behind.head? = some '.' then grouped? Char.isDigit fraction else some []
    let power ← match tail with
      | [] => if behind.isEmpty then none else some 0
      | mark :: rest => if mark = 'e' || mark = 'E' then exponent? rest else none
    let x := Decimal.nearest (Decimal.digitsValue 0 (wholeDigits ++ fractionDigits))
      (power - fractionDigits.length)
    if x.isInf then none else some x

/-- A number with a fraction or an exponent, or one of the special values. -/
def real? (cs : List Char) : Option Float :=
  let (negative, rest) := signed cs
  let value : Option Float :=
    if rest = ['i', 'n', 'f'] then some (Float.ofBits 0x7FF0000000000000)
    else if rest = ['n', 'a', 'n'] then some (Float.ofBits 0x7FF8000000000000)
    else magnitude? rest
  value.map fun x => if negative then -x else x

/-! ## Dates -/

/-- A number of exactly `count` digits at the front of a text. -/
def fixedDigits? (count : Nat) (cs : List Char) : Option (Nat × List Char) :=
  if cs.length < count then none
  else (Decimal.digits? (cs.take count)).map fun n => (n, cs.drop count)

/-- How many days a month has. -/
def daysIn (year month : Nat) : Nat :=
  if month = 2 then
    if year % 4 = 0 && (year % 100 ≠ 0 || year % 400 = 0) then 29 else 28
  else if month = 4 || month = 6 || month = 9 || month = 11 then 30
  else 31

/-- A day at the front of a text, and what is behind it. -/
def day? (cs : List Char) : Option (String × List Char) := do
  let (year, rest) ← fixedDigits? 4 cs
  let '-' :: rest := rest | none
  let (month, rest) ← fixedDigits? 2 rest
  let '-' :: rest := rest | none
  let (day, rest) ← fixedDigits? 2 rest
  if 1 ≤ month && month ≤ 12 && 1 ≤ day && day ≤ daysIn year month then
    return (Decimal.padded 4 year ++ "-" ++ Decimal.padded 2 month ++ "-" ++
      Decimal.padded 2 day, rest)
  else none

/-- A time of day at the front of a text, and what is behind it. -/
def time? (cs : List Char) : Option (String × List Char) := do
  let (hour, rest) ← fixedDigits? 2 cs
  let ':' :: rest := rest | none
  let (minute, rest) ← fixedDigits? 2 rest
  let ':' :: rest := rest | none
  let (second, rest) ← fixedDigits? 2 rest
  let fraction := match rest with
    | '.' :: more => more.takeWhile Char.isDigit
    | _ => []
  let rest ← match rest with
    | '.' :: more => if fraction.isEmpty then none else some (more.drop fraction.length)
    | _ => some rest
  let kept := ((fraction.take 9).reverse.dropWhile (· = '0')).reverse
  if hour ≤ 23 && minute ≤ 59 && second ≤ 60 then
    return (Decimal.padded 2 hour ++ ":" ++ Decimal.padded 2 minute ++ ":" ++
      Decimal.padded 2 second ++ (if kept.isEmpty then "" else "." ++ String.ofList kept), rest)
  else none

/-- The distance from the zero meridian. -/
def zone? : List Char → Option String
  | ['Z'] => some "Z"
  | ['z'] => some "Z"
  | sign :: rest =>
    if sign = '+' || sign = '-' then do
      let (hour, rest) ← fixedDigits? 2 rest
      let ':' :: rest := rest | none
      let (minute, rest) ← fixedDigits? 2 rest
      if rest.isEmpty && hour ≤ 23 && minute ≤ 59 then
        let mark := if sign = '-' && (hour ≠ 0 || minute ≠ 0) then "-" else "+"
        return mark ++ Decimal.padded 2 hour ++ ":" ++ Decimal.padded 2 minute
      else none
    else none
  | [] => none

/-- A day, a time of day, or both with or without a zone. -/
def date? (cs : List Char) : Option String :=
  match day? cs with
  | some (day, []) => some day
  | some (day, mark :: rest) =>
    if mark = 'T' || mark = 't' || mark = ' ' then
      match time? rest with
      | some (time, []) => some (day ++ "T" ++ time)
      | some (time, rest) => (zone? rest).map fun zone => day ++ "T" ++ time ++ zone
      | none => none
    else none
  | none =>
    match time? cs with
    | some (time, []) => some time
    | _ => none

/-! ## Words -/

/-- The characters of words. -/
def isWordChar (c : Char) : Bool :=
  c.isAlphanum || c = '+' || c = '-' || c = '.' || c = ':' || c = '_'

/-- The word at the front of a text, and what is behind it.  A day and a time
may be set apart by a space. -/
def splitWord (cs : List Char) : List Char × List Char :=
  let word := cs.takeWhile isWordChar
  let rest := cs.drop word.length
  match rest with
  | ' ' :: more =>
    if (day? word).map (·.2) = some [] && (time? more).isSome then
      let time := more.takeWhile isWordChar
      (word ++ ' ' :: time, more.drop time.length)
    else (word, rest)
  | _ => (word, rest)

/-- What a word stands for. -/
def ofWord? (word : List Char) : Option Scalar :=
  if word = ['t', 'r', 'u', 'e'] then some (.bool true)
  else if word = ['f', 'a', 'l', 's', 'e'] then some (.bool false)
  else
    match integer? word with
    | some n => some (.integer n)
    | none =>
      match real? word with
      | some x => some (.real x)
      | none => (date? word).map .text

end PeekLock.Settings.Toml
