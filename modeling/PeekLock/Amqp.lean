import PeekLock.Log
import PeekLock.Message
import PeekLock.Table

/-!
# PeekLock.Amqp

Application properties on the wire.

The remote bus carries properties as AMQP simple values.  JSON scalars
have a counterpart each; arrays and objects have none and travel as their
JSON text.  In the other direction every integer type becomes an integer,
both float types a double (null if it is not finite), and characters,
symbols and UUIDs a string; a property of any other type is left out.
-/

namespace PeekLock.Amqp

/-- A simple value. -/
inductive Value where
  | null
  | bool (value : Bool)
  | ubyte (value : UInt8)
  | ushort (value : UInt16)
  | uint (value : UInt32)
  | ulong (value : UInt64)
  | byte (value : Int8)
  | short (value : Int16)
  | int (value : Int32)
  | long (value : Int64)
  | float (value : Float32)
  | double (value : Float)
  | char (value : Char)
  /-- Milliseconds since the start of 1970. -/
  | timestamp (millis : Int64)
  /-- Sixteen bytes, in two halves. -/
  | uuid (high low : UInt64)
  | string (value : String)
  | symbol (value : String)
  | binary (value : List UInt8)
  | decimal32
  | decimal64
  | decimal128
  deriving DecidableEq, Inhabited

/-- Properties on the wire. -/
abbrev Properties := Table String Value

/-- The text of a UUID: groups of 8, 4, 4, 4 and 12 hexadecimal digits. -/
def uuidText (high low : UInt64) : String :=
  let digits := (Decimal.paddedHex 16 high.toNat ++ Decimal.paddedHex 16 low.toNat).toList
  let group (start count : Nat) : String := String.ofList ((digits.drop start).take count)
  "-".intercalate [group 0 8, group 8 4, group 12 4, group 16 4, group 20 12]

/-! ## Sending -/

/-- A JSON value as a simple value. -/
def ofJson : Json → Value
  | .null => .null
  | .bool b => .bool b
  | .number (.integer n) =>
    if n ≤ Decimal.maxI64 then .long (Int64.ofInt n) else .ulong (.ofNat n.toNat)
  | .number (.double x) => .double x
  | .string s => .string s
  | v => .string v.render

/-- Whether a value has to travel as text. -/
def isStructured : Json → Bool
  | .array _ | .object _ => true
  | _ => false

/-- Properties as they are sent. -/
def ofProperties (p : PeekLock.Properties) : Properties := ⟨p.map fun (k, v) => (k, ofJson v)⟩

/-- The keys of the properties that travel as text. -/
def structuredKeys (p : PeekLock.Properties) : List String :=
  (p.filter fun e => isStructured e.2).map (·.1)

/-! ## Receiving -/

/-- A simple value as JSON, if its type has a counterpart. -/
def toJson? : Value → Option Json
  | .null => some .null
  | .bool b => some (.bool b)
  | .ubyte n => some (.nat n.toNat)
  | .ushort n => some (.nat n.toNat)
  | .uint n => some (.nat n.toNat)
  | .ulong n => some (.nat n.toNat)
  | .byte n => some (.int n.toInt)
  | .short n => some (.int n.toInt)
  | .int n => some (.int n.toInt)
  | .long n => some (.int n.toInt)
  | .float x => some (.double x.toFloat)
  | .double x => some (.double x)
  | .char c => some (.string (String.singleton c))
  | .timestamp ms => some (.int ms.toInt)
  | .uuid high low => some (.string (uuidText high low))
  | .string s => some (.string s)
  | .symbol s => some (.string s)
  | .binary _ | .decimal32 | .decimal64 | .decimal128 => none

/-- Properties as they are handed out. -/
def toProperties (p : Properties) : PeekLock.Properties :=
  .ofList (p.entries.filterMap fun (k, v) => (toJson? v).map (k, ·))

/-- The properties that are left out. -/
def skipped (p : Properties) : List (String × Value) :=
  p.entries.filter fun e => (toJson? e.2).isNone

/-- One log record for each property that travels as text. -/
def sendingLogs (p : PeekLock.Properties) : List LogRecord :=
  (structuredKeys p).map fun key =>
    .remote .debug s!"Sending structured property {key} as JSON text"

/-- One log record for each property that is left out, with its value as it is printed. -/
def receivingLogs (print : Value → String) (p : Properties) : List LogRecord :=
  (skipped p).map fun (key, value) =>
    .remote .debug s!"Skipping property {key} with unsupported AMQP type {print value}"

end PeekLock.Amqp
