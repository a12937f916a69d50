import PeekLock.Json.Scalar

/-!
# PeekLock.Json.Reader

JSON text read into a value.

`read` accepts one value with blanks around it; arrays and objects may be
nested 127 deep.  Of two fields of an object with one key the later wins.
The recursion is bounded by a step count that the length of the text
always covers.
-/

namespace PeekLock.Json

namespace Reader

/-- How deep arrays and objects may be nested. -/
def maxDepth : Nat := 127

mutual

/-- A value, in front of which blanks may stand. -/
def value : (fuel depth : Nat) → List UInt8 → Reading Json
  | 0, _, bytes => .error (.before .tooDeep bytes)
  | fuel + 1, depth, bytes =>
    match skipBlanks bytes with
    | [] => .error (.before .endInValue [])
    | b :: rest =>
      if b = byte 'n' then (word nullTail rest).map fun rest => (.null, rest)
      else if b = byte 't' then (word trueTail rest).map fun rest => (.bool true, rest)
      else if b = byte 'f' then (word falseTail rest).map fun rest => (.bool false, rest)
      else if b = byte '-' then (numeral true rest).map fun (n, rest) => (.number n, rest)
      else if isDigit b then (numeral false (b :: rest)).map fun (n, rest) => (.number n, rest)
      else if b = byte '"' then (stringTail rest).map fun (s, rest) => (.string s, rest)
      else if b = byte '[' then
        match depth with
        | 0 => .error (.peeking .tooDeep (b :: rest))
        | depth + 1 =>
          (items fuel depth true [] rest).map fun (vs, rest) => (.array vs, rest)
      else if b = byte '\x7b' then
        match depth with
        | 0 => .error (.peeking .tooDeep (b :: rest))
        | depth + 1 =>
          (members fuel depth true [] rest).map fun (ms, rest) => (ofMembers ms, rest)
      else .error (.peeking .missingValue (b :: rest))

/-- The items of an array from here on, behind the ones read so far (last one
first), and the closing bracket. -/
def items : (fuel depth : Nat) → (first : Bool) → (behind : List Json) → List UInt8 →
    Reading (List Json)
  | 0, _, _, _, bytes => .error (.before .tooDeep bytes)
  | fuel + 1, depth, first, behind, bytes =>
    match skipBlanks bytes with
    | [] => .error (.before .endInArray [])
    | b :: rest =>
      if b = byte ']' then .ok (behind.reverse, rest)
      else if first then
        match value fuel depth (b :: rest) with
        | .error f => .error f
        | .ok (v, rest) => items fuel depth false (v :: behind) rest
      else if b = byte ',' then
        match skipBlanks rest with
        | [] => .error (.before .endInValue [])
        | c :: rest =>
          if c = byte ']' then .error (.peeking .trailingComma (c :: rest))
          else
            match value fuel depth (c :: rest) with
            | .error f => .error f
            | .ok (v, rest) => items fuel depth false (v :: behind) rest
      else .error (.peeking .missingArrayComma (b :: rest))

/-- The members of an object from here on, behind the ones read so far (last
one first), and the closing brace. -/
def members : (fuel depth : Nat) → (first : Bool) → (behind : List (String × Json)) →
    List UInt8 → Reading (List (String × Json))
  | 0, _, _, _, bytes => .error (.before .tooDeep bytes)
  | fuel + 1, depth, first, behind, bytes =>
    match skipBlanks bytes with
    | [] => .error (.before .endInObject [])
    | b :: rest =>
      if b = byte '\x7d' then .ok (behind.reverse, rest)
      else if first then
        if b = byte '"' then member fuel depth behind rest
        else .error (.peeking .keyNotString (b :: rest))
      else if b = byte ',' then
        match skipBlanks rest with
        | [] => .error (.before .endInValue [])
        | c :: rest =>
          if c = byte '"' then member fuel depth behind rest
          else if c = byte '\x7d' then .error (.peeking .trailingComma (c :: rest))
          else .error (.peeking .keyNotString (c :: rest))
      else .error (.peeking .missingObjectComma (b :: rest))

/-- A member behind the quote that opens its key, and the members after it. -/
def member : (fuel depth : Nat) → (behind : List (String × Json)) → List UInt8 →
    Reading (List (String × Json))
  | 0, _, _, bytes => .error (.before .tooDeep bytes)
  | fuel + 1, depth, behind, bytes =>
    match stringTail bytes with
    | .error f => .error f
    | .ok (key, rest) =>
      match skipBlanks rest with
      | [] => .error (.before .endInObject [])
      | b :: rest =>
        if b = byte ':' then
          match value fuel depth rest with
          | .error f => .error f
          | .ok (v, rest) => members fuel depth false ((key, v) :: behind) rest
        else .error (.peeking .missingColon (b :: rest))

end

/-- Steps that reading `bytes` can take: three for each byte are enough. -/
def steps (bytes : List UInt8) : Nat := 3 * bytes.length + 3

/-- Requires that nothing but blanks is left. -/
def finish {α : Type} (bytes : List UInt8) (a : α) : Except Fault α :=
  match skipBlanks bytes with
  | [] => .ok a
  | rest => .error (.peeking .trailingCharacters rest)

end Reader

open Reader in
/-- The value that a text stands for. -/
def read (text : List UInt8) : Except Fault Json :=
  match Reader.value (steps text) maxDepth text with
  | .error f => .error f
  | .ok (v, rest) => finish rest v

/-- The value of a string, if it is JSON. -/
def ofText? (s : String) : Option Json := (read (Text.Utf8.bytesOf s)).toOption

end PeekLock.Json
