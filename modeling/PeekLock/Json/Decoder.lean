import PeekLock.Decimal.Double
import PeekLock.Json.Reader

/-!
# PeekLock.Json.Decoder

JSON text read straight into a wanted kind of value.

A decoder takes the unread bytes and answers a value and the bytes behind
it.  A value of another kind is refused with the cause `unsuitable` — but
only after a scalar has been read to its end, so a scalar that is itself
malformed or cut off is reported as such, while an array or object is
refused at its first byte.

Records are read from objects and from arrays.  In an object the fields
may come in any order, unknown ones are skipped and none may come twice;
in an array they come in order, and whether the last ones may be missing
depends on the record.  `skip` passes over a value without looking at
what it means: inside it depth, surrogates and the range of numbers do
not matter.
-/

namespace PeekLock.Json

open Reader

/-- The double nearest to a number of at most 64 bits. -/
def Number.toDouble : Number → Float
  | .double x => x
  | .integer n => Decimal.ofInt n

/-- A decoder for `α`. -/
abbrev Decoder (α : Type) := List UInt8 → Reading α

namespace Decoder

/-- The fault of a value that starts with these bytes and is not of the kind
asked for. -/
def refusal (bytes : List UInt8) : Fault :=
  let after : Except Fault (List UInt8) → Fault
    | .error f => f
    | .ok rest => .before .unsuitable rest
  match bytes with
  | [] => .before .endInValue []
  | b :: rest =>
    if b = byte 'n' then after (word nullTail rest)
    else if b = byte 't' then after (word trueTail rest)
    else if b = byte 'f' then after (word falseTail rest)
    else if b = byte '-' then after ((numeral true rest).map (·.2))
    else if isDigit b then after ((numeral false bytes).map (·.2))
    else if b = byte '"' then after ((stringTail rest).map (·.2))
    else if b = byte '[' || b = byte '\x7b' then .before .unsuitable bytes
    else .peeking .missingValue bytes

/-- A value of the kind that starts with certain bytes; `decode` gets the
first byte and the ones behind it, and answers nothing if they start a
value of another kind. -/
def startingWith {α : Type} (decode : UInt8 → List UInt8 → Option (Reading α)) : Decoder α :=
  fun bytes =>
    match skipBlanks bytes with
    | [] => .error (.before .endInValue [])
    | b :: rest => (decode b rest).getD (.error (refusal (b :: rest)))

/-- A number of which `accept` takes the value, if it is suitable. -/
def numeric {α : Type} (accept : Number → Option α) : Decoder α :=
  let take : Reading Number → Reading α
    | .error f => .error f
    | .ok (n, rest) =>
      match accept n with
      | some a => .ok (a, rest)
      | none => .error (.before .unsuitable rest)
  startingWith fun b rest =>
    if b = byte '-' then some (take (numeral true rest))
    else if isDigit b then some (take (numeral false (b :: rest)))
    else none

/-- An integer between 0 and `limit`. -/
def natural (limit : Nat) : Decoder Nat :=
  numeric fun
    | .integer n => if 0 ≤ n && n ≤ limit then some n.toNat else none
    | .double _ => none

/-- An integer of 64 bits with a sign. -/
def integer : Decoder Int :=
  numeric fun
    | .integer n => if n ≤ Decimal.maxI64 then some n else none
    | .double _ => none

/-- Any number, as a double. -/
def real : Decoder Float := numeric fun n => some n.toDouble

/-- A truth value. -/
def boolean : Decoder Bool :=
  startingWith fun b rest =>
    if b = byte 't' then some ((word trueTail rest).map fun rest => (true, rest))
    else if b = byte 'f' then some ((word falseTail rest).map fun rest => (false, rest))
    else none

/-- A string. -/
def text : Decoder String :=
  startingWith fun b rest => if b = byte '"' then some (stringTail rest) else none

/-- Null, or what `decode` takes. -/
def optional {α : Type} (decode : Decoder α) : Decoder (Option α) := fun bytes =>
  match skipBlanks bytes with
  | b :: rest =>
    if b = byte 'n' then (word nullTail rest).map fun rest => (none, rest)
    else (decode (b :: rest)).map fun (a, rest) => (some a, rest)
  | [] => .error (.before .endInValue [])

/-- Whether an array goes on: `none` at its closing bracket, otherwise the
bytes of the next item. -/
def nextItem (first : Bool) (bytes : List UInt8) : Except Fault (Option (List UInt8)) :=
  match skipBlanks bytes with
  | [] => .error (.before .endInArray [])
  | b :: rest =>
    if b = byte ']' then .ok none
    else if first then .ok (some (b :: rest))
    else if b = byte ',' then
      match skipBlanks rest with
      | [] => .error (.before .endInValue [])
      | c :: rest =>
        if c = byte ']' then .error (.peeking .trailingComma (c :: rest))
        else .ok (some (c :: rest))
    else .error (.peeking .missingArrayComma (b :: rest))

/-- The end of an array all of whose wanted items have been read. -/
def endOfArray {α : Type} (a : α) (bytes : List UInt8) : Reading α :=
  match skipBlanks bytes with
  | [] => .error (.before .endInArray [])
  | b :: rest =>
    if b = byte ']' then .ok (a, rest)
    else if b = byte ',' then
      match skipBlanks rest with
      | c :: tail =>
        if c = byte ']' then .error (.peeking .trailingComma (c :: tail))
        else .error (.peeking .trailingCharacters (c :: tail))
      | [] => .error (.peeking .trailingCharacters [])
    else .error (.peeking .trailingCharacters (b :: rest))

/-- The items of a list from here on, behind the ones read so far. -/
def listItems {α : Type} (decode : Decoder α) :
    (fuel : Nat) → (first : Bool) → (behind : List α) → List UInt8 → Reading (List α)
  | 0, _, _, bytes => .error (.before .tooDeep bytes)
  | fuel + 1, first, behind, bytes =>
    match nextItem first bytes with
    | .error f => .error f
    | .ok none => endOfArray behind.reverse bytes
    | .ok (some bytes) =>
      match decode bytes with
      | .error f => .error f
      | .ok (a, rest) => listItems decode fuel false (a :: behind) rest

/-- A list of what `decode` takes. -/
def list {α : Type} (decode : Decoder α) : Decoder (List α) :=
  startingWith fun b rest =>
    if b = byte '[' then some (listItems decode (rest.length + 1) true [] rest) else none

/-! ## Skipping -/

/-- A string without looking at what its escapes stand for. -/
def skipString : List UInt8 → Except Fault (List UInt8)
  | [] => .error (.before .endInString [])
  | b :: rest =>
    if b = 0x22 then .ok rest
    else if b = 0x5C then
      match rest with
      | [] => .error (.before .endInString [])
      | e :: rest =>
        if e = 0x75 then
          match rest with
          | a :: b :: c :: d :: tail =>
            match hexDigit? a, hexDigit? b, hexDigit? c, hexDigit? d with
            | some _, some _, some _, some _ => skipString tail
            | _, _, _, _ => .error (.before .invalidEscape tail)
          | _ => .error (.before .endInString [])
        else if [0x22, 0x5C, 0x2F, 0x62, 0x66, 0x6E, 0x72, 0x74].contains e then skipString rest
        else .error (.before .invalidEscape rest)
    else if b < 0x20 then .error (.before .controlCharacter rest)
    else skipString rest

/-- The exponent of a number, from its mark on if there is one. -/
def skipExponent (bytes : List UInt8) : Except Fault (List UInt8) :=
  match bytes with
  | b :: rest =>
    if isExponentMark b then
      let rest := match rest with
        | s :: more => if s = 0x2B || s = 0x2D then more else rest
        | [] => []
      match rest with
      | [] => .error (.before .endInValue [])
      | d :: rest =>
        if isDigit d then .ok (rest.dropWhile isDigit) else .error (.before .invalidNumber rest)
    else .ok bytes
  | [] => .ok []

/-- A number behind its sign, whatever its range. -/
def skipNumber : List UInt8 → Except Fault (List UInt8)
  | [] => .error (.before .endInValue [])
  | b :: rest =>
    let behind : Except Fault (List UInt8) :=
      if b = 0x30 then
        match rest with
        | d :: _ => if isDigit d then .error (.peeking .invalidNumber rest) else .ok rest
        | [] => .ok []
      else if isDigit b then .ok (rest.dropWhile isDigit)
      else .error (.before .invalidNumber rest)
    match behind with
    | .error f => .error f
    | .ok (p :: rest) =>
      if p = 0x2E then
        match rest with
        | [] => .error (.before .endInValue [])
        | d :: more =>
          if isDigit d then skipExponent (more.dropWhile isDigit)
          else .error (.peeking .invalidNumber rest)
      else skipExponent (p :: rest)
    | .ok [] => .ok []

/-- Where in a value that is skipped the reading stands. -/
inductive Expecting where
  /-- A value comes. -/
  | value
  /-- A value has ended; a comma or a closing bracket comes. -/
  | more
  /-- An array or object has just been opened. -/
  | opened

/-- Skips a value, given the brackets that are open (innermost first). -/
def skipFrom : (fuel : Nat) → Expecting → (openBrackets : List UInt8) → List UInt8 →
    Except Fault (List UInt8)
  | 0, _, _, bytes => .error (.before .tooDeep bytes)
  | fuel + 1, .value, frames, bytes =>
    let next : Except Fault (List UInt8) → Except Fault (List UInt8)
      | .error f => .error f
      | .ok rest => skipFrom fuel .more frames rest
    match skipBlanks bytes with
    | [] => .error (.before .endInValue [])
    | b :: rest =>
      if b = byte 'n' then next (word nullTail rest)
      else if b = byte 't' then next (word trueTail rest)
      else if b = byte 'f' then next (word falseTail rest)
      else if b = byte '-' then next (skipNumber rest)
      else if isDigit b then next (skipNumber (b :: rest))
      else if b = byte '"' then next (skipString rest)
      else if b = byte '[' || b = byte '\x7b' then skipFrom fuel .opened (b :: frames) rest
      else .error (.peeking .missingValue (b :: rest))
  | _ + 1, _, [], bytes => .ok bytes
  | fuel + 1, state, frame :: frames, bytes =>
    let inArray := frame = byte '['
    let first := match state with
      | .opened => true
      | _ => false
    let entry : List UInt8 → Except Fault (List UInt8) := fun bytes =>
      if inArray then skipFrom fuel .value (frame :: frames) bytes
      else
        match skipBlanks bytes with
        | [] => .error (.before .endInObject [])
        | q :: rest =>
          if q ≠ byte '"' then .error (.peeking .keyNotString (q :: rest))
          else
            match skipString rest with
            | .error f => .error f
            | .ok rest =>
              match skipBlanks rest with
              | [] => .error (.before .endInObject [])
              | c :: rest =>
                if c = byte ':' then skipFrom fuel .value (frame :: frames) rest
                else .error (.peeking .missingColon (c :: rest))
    match skipBlanks bytes with
    | [] => .error (.before (if inArray then .endInArray else .endInObject) [])
    | b :: rest =>
      if b = (if inArray then byte ']' else byte '\x7d') then skipFrom fuel .more frames rest
      else if first then entry (b :: rest)
      else if b = byte ',' then entry rest
      else
        .error (.peeking (if inArray then .missingArrayComma else .missingObjectComma) (b :: rest))

/-- Passes over one value. -/
def skip : Decoder Unit := fun bytes =>
  (skipFrom (steps bytes) .value [] bytes).map fun rest => ((), rest)

/-! ## Records -/

/-- A field of a record that is built up in `σ`. -/
structure Field (σ : Type) where
  key : String
  decode : σ → Decoder σ

/-- A field whose decoded value is stored by `store`. -/
def Field.of {σ α : Type} (key : String) (decode : Decoder α) (store : σ → α → σ) : Field σ :=
  ⟨key, fun s bytes => (decode bytes).map fun (a, rest) => (store s a, rest)⟩

/-- The members of a record in an object, with the keys seen so far. -/
def recordMembers {σ : Type} (fields : List (Field σ)) :
    (fuel : Nat) → (first : Bool) → (seen : List String) → σ → List UInt8 → Reading σ
  | 0, _, _, _, bytes => .error (.before .tooDeep bytes)
  | fuel + 1, first, seen, s, bytes =>
    let atKey : List UInt8 → Reading σ := fun bytes =>
      match stringTail bytes with
      | .error f => .error f
      | .ok (key, rest) =>
        let wanted := fields.find? (·.key = key)
        if wanted.isSome && seen.contains key then .error (.before .unsuitable rest)
        else
          match skipBlanks rest with
          | [] => .error (.before .endInObject [])
          | c :: rest =>
            if c ≠ byte ':' then .error (.peeking .missingColon (c :: rest))
            else
              let result : Reading σ := match wanted with
                | some field => field.decode s rest
                | none => (skip rest).map fun (_, rest) => (s, rest)
              match result with
              | .error f => .error f
              | .ok (s, rest) => recordMembers fields fuel false (key :: seen) s rest
    match skipBlanks bytes with
    | [] => .error (.before .endInObject [])
    | b :: rest =>
      if b = byte '\x7d' then .ok (s, rest)
      else if first then
        if b = byte '"' then atKey rest else .error (.peeking .keyNotString (b :: rest))
      else if b = byte ',' then
        match skipBlanks rest with
        | [] => .error (.before .endInValue [])
        | c :: rest =>
          if c = byte '"' then atKey rest
          else if c = byte '\x7d' then .error (.peeking .trailingComma (c :: rest))
          else .error (.peeking .keyNotString (c :: rest))
      else .error (.peeking .missingObjectComma (b :: rest))

/-- The items of a record in an array.  If the last fields are not `complete`,
they keep what `σ` has for them. -/
def recordItems {σ : Type} (complete : Bool) :
    (fields : List (Field σ)) → (first : Bool) → σ → List UInt8 → Reading σ
  | [], _, s, bytes => endOfArray s bytes
  | field :: fields, first, s, bytes =>
    match nextItem first bytes with
    | .error f => .error f
    | .ok none =>
      if complete then .error (.before .unsuitable bytes) else endOfArray s bytes
    | .ok (some bytes) =>
      match field.decode s bytes with
      | .error f => .error f
      | .ok (s, rest) => recordItems complete fields false s rest

/-- A record, from an object or an array, starting from `init`. -/
def record {σ : Type} (fields : List (Field σ)) (complete : Bool) (init : σ) : Decoder σ :=
  startingWith fun b rest =>
    if b = byte '[' then some (recordItems complete fields true init rest)
    else if b = byte '\x7b' then
      some (recordMembers fields (rest.length + 1) true [] init rest)
    else none

/-- Requires a value that was to be found in a record. -/
def required {α : Type} (decode : Decoder (Option α)) : Decoder α := fun bytes =>
  match decode bytes with
  | .error f => .error f
  | .ok (some a, rest) => .ok (a, rest)
  | .ok (none, rest) => .error (.before .unsuitable rest)

/-- Reads a whole text. -/
def run {α : Type} (decode : Decoder α) (text : List UInt8) : Except Fault α :=
  match decode text with
  | .error f => .error f
  | .ok (a, rest) => finish rest a

end Decoder

end PeekLock.Json
