import PeekLock.Decimal.Shortest
import PeekLock.Settings.Node
import PeekLock.Text.Quoted

/-!
# PeekLock.Settings.Mismatch

A value that does not fit the setting it was written for.

The message says what was found, what was expected, for which key and, if
that is known, where it was written.  Single settings and whole sections
describe what was found in slightly different words: a setting also tells
how wide a number is.
-/

namespace PeekLock.Settings

/-- What was found in the place of a setting. -/
inductive Found where
  | bool (value : Bool)
  | signed (value : Int)
  | unsigned (value : Nat)
  | real (value : Float)
  | text (value : String)
  | nothing
  | list
  | table
  deriving DecidableEq, Inhabited

namespace Found

/-- A number, as signed as its value allows. -/
def integer (n : Int) : Found := if n ≤ Decimal.maxI64 then .signed n else .unsigned n.toNat

/-- What a node holds. -/
def ofNode : Node → Found
  | .scalar _ .null => .nothing
  | .scalar _ (.bool b) => .bool b
  | .scalar _ (.integer n) => .integer n
  | .scalar _ (.real x) => .real x
  | .scalar _ (.text s) => .text s
  | .list .. => .list
  | .table .. => .table

/-- In the place of a single setting. -/
def asSetting : Found → String
  | .bool b => s!"boolean `{b}`"
  | .signed n => s!"64-bit integer `{n}`"
  | .unsigned n => s!"64-bit unsigned integer `{n}`"
  | .real x => s!"floating point `{Decimal.plain x}`"
  | .text s => s!"string {Text.quoted s}"
  | .nothing => "unit value"
  | .list => "sequence"
  | .table => "map"

/-- A number with a point, even if it is a whole one. -/
def pointed (x : Float) : String :=
  let s := Decimal.plain x
  if x.isFinite && !s.toList.contains '.' then s ++ ".0" else s

/-- In the place of a whole section. -/
def asSection : Found → String
  | .signed n => s!"integer `{n}`"
  | .unsigned n => s!"integer `{n}`"
  | .real x => s!"floating point `{pointed x}`"
  | found => found.asSetting

end Found

/-- What a single setting asks for. -/
inductive Wanted where
  | text
  | integer
  | signed
  | unsigned
  | unsigned32
  | real
  deriving DecidableEq, Repr, Inhabited

/-- What is asked for, in words. -/
def Wanted.words : Wanted → String
  | .text => "a string"
  | .integer => "an integer"
  | .signed => "an signed 64 bit or less integer"
  | .unsigned => "an unsigned 64 bit or less integer"
  | .unsigned32 => "an unsigned 32 bit integer"
  | .real => "a floating point"

/-- Why a tree is not a record of settings. -/
inductive Mismatch where
  /-- A setting has a value that it cannot take. -/
  | setting (found : Found) (wanted : Wanted) (key : String) (source? : Option Source)
  /-- A section is neither a table nor a list. -/
  | sectionKind (found : Found) (shape : String) (key : String)
  /-- A section is a list with too few items. -/
  | sectionLength (length : Nat) (shape : String) (fields : Nat) (key : String)
  deriving DecidableEq, Inhabited

namespace Mismatch

/-- The message of a mismatch. -/
def message : Mismatch → String
  | .setting found wanted key source? =>
    let origin := (source?.map fun s => s!" in {s.text}").getD ""
    s!"invalid type: {found.asSetting}, expected {wanted.words} for key `{key}`{origin}"
  | .sectionKind found shape key =>
    s!"invalid type: {found.asSection}, expected struct {shape} for key `{key}`"
  | .sectionLength length shape fields key =>
    s!"invalid length {length}, expected struct {shape} with {fields} elements for key `{key}`"

end Mismatch

end PeekLock.Settings
