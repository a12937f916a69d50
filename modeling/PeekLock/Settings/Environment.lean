import PeekLock.Decimal.Double
import PeekLock.Settings.Path
import PeekLock.Text.LowerCase

/-!
# PeekLock.Settings.Environment

Settings given by environment variables.

A variable counts if its name, in lower case, starts with `servicekit__`.
What follows is a path whose steps are separated by double underscores.
Its value is a truth value, a whole number or a double if it is spelled
like one, and a text otherwise.
-/

namespace PeekLock.Settings

/-- The variables of an environment. -/
abbrev Environment := List (String × String)

namespace Environment

/-- What the names of variables that hold settings start with, in lower case. -/
def mark : List Char := "servicekit__".toList

/-- A name with each double underscore turned into a dot. -/
def dotted : List Char → List Char
  | [] => []
  | '_' :: '_' :: rest => '.' :: dotted rest
  | c :: rest => c :: dotted rest

/-- The key that a variable gives a value, if it holds a setting. -/
def key? (name : String) : Option String :=
  let lower := (Text.lowerCase name).toList
  if mark.isPrefixOf lower then some (String.ofList (dotted (lower.drop mark.length))) else none

/-- What the value of a variable stands for. -/
def valueOf (s : String) : Scalar :=
  let lower := Text.lowerCase s
  if lower = "true" then .bool true
  else if lower = "false" then .bool false
  else
    match Decimal.int? Decimal.maxI64 s.toList with
    | some n => .integer n
    | none =>
      match Decimal.double? s.toList with
      | some x => .real x
      | none => .text s

/-- The settings among the variables. -/
def settings (env : Environment) : List (String × Node) :=
  env.filterMap fun (name, value) =>
    (key? name).map fun key => (key, .scalar (some .environment) (valueOf value))

/-- The value of a variable. -/
def get? (env : Environment) (name : String) : Option String :=
  (env.find? fun e => e.1 = name).map (·.2)

end Environment

end PeekLock.Settings
