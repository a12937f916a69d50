import PeekLock.Decimal.Integer

/-!
# PeekLock.Service.CommandLine

The command line of the service.

Three options are known besides help, each may be given once, and there
are no other arguments.  A value may be attached to its option by an equals
sign or follow as the next argument; one that follows is only looked at
when the option is over, that is at the next option or at the end, and an
argument that is unknown is reported before that.
-/

namespace PeekLock.Service

/-- What the command line asks for. -/
structure CommandLine where
  /-- The settings file. -/
  config : Option String
  /-- Whether the in-memory bus is used. -/
  inMemory : Bool
  /-- How many sample messages are sent first. -/
  produce : Nat
  deriving DecidableEq, Repr, Inhabited

/-- Why a command line is not carried out. -/
inductive UsageError where
  /-- It asks for help. -/
  | helpWanted
  /-- An argument is not known. -/
  | unknownArgument
  /-- An option lacks its value. -/
  | valueMissing
  /-- A value is not of the right form. -/
  | valueInvalid
  /-- A value is attached to an option that takes none. -/
  | valueUnwanted
  /-- An option is given twice. -/
  | repeated
  deriving DecidableEq, Repr, Inhabited

/-- The exit code of a command line that is not carried out. -/
def UsageError.exitCode : UsageError → Nat
  | .helpWanted => 0
  | _ => 2

namespace CommandLine

/-- What the service prints when it is asked for help. -/
def help : String :=
  "Consumes a Service Bus queue or subscription and logs every message\n\n" ++
  "Usage: demo-service [OPTIONS]\n\n" ++
  "Options:\n" ++
  "      --config <CONFIG>    Configuration file (TOML, JSON or YAML); defaults to " ++
  "./config.toml when present\n" ++
  "      --in-memory          Use an in-process broker instead of Azure Service Bus\n" ++
  "      --produce <PRODUCE>  Number of sample JSON messages to send before consuming " ++
  "[default: 0]\n" ++
  "  -h, --help               Print help\n"

/-! ## Options -/

/-- The options that take a value. -/
inductive Key where
  | config
  | produce
  deriving DecidableEq, Repr

/-- What a long option is. -/
inductive Name where
  | valued (key : Key)
  | inMemory
  | help
  deriving DecidableEq, Repr

/-- The long option of that name. -/
def Name.ofText : String → Option Name
  | "config" => some (.valued .config)
  | "produce" => some (.valued .produce)
  | "in-memory" => some .inMemory
  | "help" => some .help
  | _ => none

/-- The arguments seen so far. -/
structure Seen where
  config : Option String := none
  produce : Option Nat := none
  inMemory : Bool := false
  /-- An option whose value is not taken in yet, with the value if it has come. -/
  pending : Option (Key × Option String) := none
  /-- Whether the options are over. -/
  closed : Bool := false
  deriving DecidableEq, Repr

/-- The largest number of messages that can be asked for. -/
def maxProduce : Nat := Decimal.maxU32

/-- A number of messages: a whole number with or without a sign, within its
limits. -/
def count? (text : String) : Option Nat :=
  match Decimal.int? Decimal.maxI64 text.toList with
  | some n => if 0 ≤ n && n ≤ maxProduce then some n.toNat else none
  | none => none

namespace Seen

/-- Takes in the value of an option. -/
def take (s : Seen) (key : Key) (value : String) : Except UsageError Seen :=
  match key with
  | .config =>
    if s.config.isSome then .error .repeated
    else if value.isEmpty then .error .valueMissing
    else .ok { s with config := some value }
  | .produce =>
    if s.produce.isSome then .error .repeated
    else
      match count? value with
      | some n => .ok { s with produce := some n }
      | none => .error .valueInvalid

/-- Takes in the value of an option that is over. -/
def settle (s : Seen) : Except UsageError Seen :=
  let rest := { s with pending := none }
  match s.pending with
  | none => .ok rest
  | some (_, none) => .error .valueMissing
  | some (key, some value) => rest.take key value

/-- A long option, with the value that is attached to it. -/
def long (s : Seen) (name : String) (attached : Option String) : Except UsageError Seen :=
  match Name.ofText name, attached with
  | some (.valued key), some value => do (← s.settle).take key value
  | some (.valued key), none => do
    let s ← s.settle
    return { s with pending := some (key, none) }
  | some .inMemory, none => do
    let s ← s.settle
    if s.inMemory then .error .repeated else .ok { s with inMemory := true }
  | some .help, none => do
    let _ ← s.settle
    .error .helpWanted
  | some _, some _ => .error .valueUnwanted
  | none, _ => .error .unknownArgument

/-- A short option; there is only the one for help. -/
def short (s : Seen) (letter : Char) : Except UsageError Seen :=
  if letter = 'h' then do
    let _ ← s.settle
    .error .helpWanted
  else .error .unknownArgument

/-- An argument that is no option: the value of the option in front of it, or
else nothing that is known. -/
def plain (s : Seen) (text : String) : Except UsageError Seen :=
  match s.pending with
  | some (key, none) => .ok { s with pending := some (key, some text) }
  | _ => .error .unknownArgument

/-- The text in front of an equals sign, and the text behind it. -/
def splitValue (cs : List Char) : String × Option String :=
  let name := String.ofList (cs.takeWhile (· ≠ '='))
  match cs.dropWhile (· ≠ '=') with
  | [] => (name, none)
  | _ :: value => (name, some (String.ofList value))

/-- The next argument. -/
def next (s : Seen) (argument : String) : Except UsageError Seen :=
  if s.closed then .error .unknownArgument
  else
    match argument.toList with
    | ['-', '-'] => .ok { s with closed := true }
    | '-' :: '-' :: rest => s.long (splitValue rest).1 (splitValue rest).2
    | '-' :: letter :: _ => s.short letter
    | _ => s.plain argument

end Seen

/-- Reads a command line. -/
def read (arguments : List String) : Except UsageError CommandLine := do
  let seen ← arguments.foldlM Seen.next {}
  let seen ← seen.settle
  return ⟨seen.config, seen.inMemory, seen.produce.getD 0⟩

end CommandLine

end PeekLock.Service
