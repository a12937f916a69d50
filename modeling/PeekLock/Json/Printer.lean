import PeekLock.Decimal.Shortest
import PeekLock.Json.Value
import PeekLock.Text.Utf8

/-!
# PeekLock.Json.Printer

JSON values as compact text: no blanks, fields in the order in which the
object keeps them, doubles in their shortest form, and in strings no
escapes but those that the grammar asks for — the quote, the backslash
and the control characters, the five common ones by their letter.
-/

namespace PeekLock.Json

/-- A character inside a quoted string. -/
def escapeChar (c : Char) : List Char :=
  match c with
  | '"' => ['\\', '"']
  | '\\' => ['\\', '\\']
  | '\n' => ['\\', 'n']
  | '\r' => ['\\', 'r']
  | '\t' => ['\\', 't']
  | '\x08' => ['\\', 'b']
  | '\x0c' => ['\\', 'f']
  | _ =>
    if c.toNat < 0x20 then
      ['\\', 'u', '0', '0', Nat.digitChar (c.toNat / 16), Nat.digitChar (c.toNat % 16)]
    else [c]

/-- A quoted string. -/
def quote (s : String) : List Char := '"' :: s.toList.flatMap escapeChar ++ ['"']

/-- A number. -/
def Number.chars : Number → List Char
  | .integer n => (toString n).toList
  | .double x => (Decimal.scientific x).toList

mutual

/-- A value. -/
def chars : Json → List Char
  | .null => ['n', 'u', 'l', 'l']
  | .bool true => ['t', 'r', 'u', 'e']
  | .bool false => ['f', 'a', 'l', 's', 'e']
  | .number n => n.chars
  | .string s => quote s
  | .array [] => ['[', ']']
  | .array (v :: rest) => '[' :: v.chars ++ moreItems rest
  | .object [] => ['{', '}']
  | .object ((k, v) :: rest) => '{' :: quote k ++ ':' :: v.chars ++ moreFields rest

/-- The items behind the first one, and the closing bracket. -/
def moreItems : List Json → List Char
  | [] => [']']
  | v :: rest => ',' :: v.chars ++ moreItems rest

/-- The fields behind the first one, and the closing brace. -/
def moreFields : List (String × Json) → List Char
  | [] => ['}']
  | (k, v) :: rest => ',' :: quote k ++ ':' :: v.chars ++ moreFields rest

end

/-- The compact text of a value. -/
def render (v : Json) : String := String.ofList v.chars

/-- The compact text of a value, as bytes. -/
def bytes (v : Json) : List UInt8 := Text.Utf8.encode v.chars

end PeekLock.Json
