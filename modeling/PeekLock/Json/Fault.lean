/-!
# PeekLock.Json.Fault

Why a text is not the JSON that was asked for, and where.

A fault carries its cause and the number of bytes that were unread when it
was noticed; `Fault.position` turns that number into a line and a column.
Columns count bytes since the last line feed.
-/

namespace PeekLock.Json

/-- The ways in which a text fails to be the JSON that was asked for. -/
inductive Cause where
  | endInValue
  | endInString
  | endInArray
  | endInObject
  | missingColon
  | missingArrayComma
  | missingObjectComma
  | brokenWord
  | missingValue
  | invalidEscape
  | invalidNumber
  | numberOutOfRange
  | invalidCodePoint
  | controlCharacter
  | keyNotString
  | loneSurrogate
  | unfinishedSurrogate
  | trailingComma
  | trailingCharacters
  | tooDeep
  /-- A well-formed value of another kind than the one asked for. -/
  | unsuitable
  deriving DecidableEq, Repr

/-- The three kinds of causes: the grammar is broken, the text ends too
early, or the value is not of the kind asked for. -/
inductive Category where
  | malformed
  | truncated
  | mismatch
  deriving DecidableEq, Repr

/-- The kind of a cause. -/
def Cause.category : Cause → Category
  | .endInValue | .endInString | .endInArray | .endInObject => .truncated
  | .unsuitable => .mismatch
  | _ => .malformed

/-- What a cause is called in a message. -/
def Cause.text : Cause → String
  | .endInValue => "EOF while parsing a value"
  | .endInString => "EOF while parsing a string"
  | .endInArray => "EOF while parsing a list"
  | .endInObject => "EOF while parsing an object"
  | .missingColon => "expected `:`"
  | .missingArrayComma => "expected `,` or `]`"
  | .missingObjectComma => "expected `,` or `\x7d`"
  | .brokenWord => "expected ident"
  | .missingValue => "expected value"
  | .invalidEscape => "invalid escape"
  | .invalidNumber => "invalid number"
  | .numberOutOfRange => "number out of range"
  | .invalidCodePoint => "invalid unicode code point"
  | .controlCharacter => "control character (\\u0000-\\u001F) found while parsing a string"
  | .keyNotString => "key must be a string"
  | .loneSurrogate => "lone leading surrogate in hex escape"
  | .unfinishedSurrogate => "unexpected end of hex escape"
  | .trailingComma => "trailing comma"
  | .trailingCharacters => "trailing characters"
  | .tooDeep => "recursion limit exceeded"
  | .unsuitable => "invalid type"

/-- A cause, and how many bytes were unread when it was noticed. -/
structure Fault where
  cause : Cause
  unread : Nat
  deriving DecidableEq, Repr

/-- A fault noticed when everything in front of `rest` had been read. -/
def Fault.before (cause : Cause) (rest : List UInt8) : Fault := ⟨cause, rest.length⟩

/-- A fault noticed by looking at the first byte of `rest` without reading it:
that byte counts as read, if there is one. -/
def Fault.peeking (cause : Cause) (rest : List UInt8) : Fault := ⟨cause, rest.length - 1⟩

/-- A place in a text. -/
structure Position where
  line : Nat
  column : Nat
  deriving DecidableEq, Repr

/-- The place behind the first `read` bytes of a text. -/
def Position.after (text : List UInt8) (read : Nat) : Position :=
  (text.take read).foldl
    (fun p b => if b = 10 then ⟨p.line + 1, 0⟩ else ⟨p.line, p.column + 1⟩) ⟨1, 0⟩

/-- Where in the text a fault was noticed. -/
def Fault.position (text : List UInt8) (f : Fault) : Position :=
  .after text (text.length - f.unread)

/-- The message of a fault, with its place. -/
def Fault.message (text : List UInt8) (f : Fault) : String :=
  let p := f.position text
  s!"{f.cause.text} at line {p.line} column {p.column}"

end PeekLock.Json
