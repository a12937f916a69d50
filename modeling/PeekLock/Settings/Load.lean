import PeekLock.Json.Reader
import PeekLock.Log
import PeekLock.Settings.DotEnv
import PeekLock.Settings.FromNode
import PeekLock.Settings.Toml.Reader
import PeekLock.Settings.Validation
import PeekLock.Settings.Yaml.Reader

/-!
# PeekLock.Settings.Load

Loading the settings of a service.

A file in TOML, JSON or YAML comes first — a given one, or `config` with
whatever extension there is — and the environment is laid over it.  The
result is converted to settings and checked; settings that break a limit
are refused.
-/

namespace PeekLock.Settings

/-- The files that can be read, by their names relative to where the service
runs. -/
abbrev Files := List (String × List UInt8)

/-- The formats of settings files. -/
inductive Format where
  | toml
  | json
  | yaml
  deriving DecidableEq, Repr

/-- The extensions, in the order in which they are tried. -/
def Format.extensions : List (String × Format) :=
  [("toml", .toml), ("json", .json), ("yaml", .yaml), ("yml", .yaml)]

/-- Why settings could not be loaded. -/
inductive LoadError where
  | fileMissing (path : String)
  | formatUnknown (path : String)
  | fileMalformed (name : String)
  | mismatch (m : Mismatch)
  | invalid (violations : List Violation)
  deriving DecidableEq, Inhabited

namespace LoadError

/-- What went wrong, without saying that it did so while loading. -/
def detail : LoadError → String
  | .fileMissing path => s!"configuration file \"{path}\" not found"
  | .formatUnknown path => s!"configuration file \"{path}\" is not of a registered file format"
  | .fileMalformed name => s!"malformed file {name}"
  | .mismatch m => m.message
  | .invalid violations => Violation.report violations

/-- The message of an error. -/
def message (e : LoadError) : String :=
  match e with
  | .invalid violations => Violation.report violations
  | _ => s!"Configuration loading failed: {e.detail}"

/-- The messages of an error and of what caused it. -/
def chain (e : LoadError) : List String :=
  match e with
  | .invalid _ => [e.message]
  | _ => [e.message, e.detail]

end LoadError

/-! ## Trees from files -/

/-- A scalar of a JSON number. -/
def Scalar.ofNumber : Json.Number → Scalar
  | .integer n => .integer n
  | .double x => .real x

mutual

/-- The tree of a JSON value. -/
def Node.ofJson : Json → Node
  | .null => .scalar none .null
  | .bool b => .scalar none (.bool b)
  | .number n => .scalar none (.ofNumber n)
  | .string s => .scalar none (.text s)
  | .array items => .list none (Node.ofItems items)
  | .object fields => .table none (Node.ofFields fields)

/-- The trees of some JSON values. -/
def Node.ofItems : List Json → List Node
  | [] => []
  | v :: rest => Node.ofJson v :: Node.ofItems rest

/-- The entries of some JSON fields. -/
def Node.ofFields : List (String × Json) → List (String × Node)
  | [] => []
  | (k, v) :: rest => (k, Node.ofJson v) :: Node.ofFields rest

end

mutual

/-- The tree with every part marked as written in a source. -/
def Node.writtenIn (s : Source) : Node → Node
  | .scalar _ value => .scalar (some s) value
  | .list _ items => .list (some s) (Node.itemsWrittenIn s items)
  | .table _ entries => .table (some s) (Node.entriesWrittenIn s entries)

/-- The trees with every part marked. -/
def Node.itemsWrittenIn (s : Source) : List Node → List Node
  | [] => []
  | n :: rest => n.writtenIn s :: Node.itemsWrittenIn s rest

/-- The entries with every part marked. -/
def Node.entriesWrittenIn (s : Source) : List (String × Node) → List (String × Node)
  | [] => []
  | (k, n) :: rest => (k, n.writtenIn s) :: Node.entriesWrittenIn s rest

end

/-- The table that a text in some format stands for. -/
def Format.read? (format : Format) (text : List Char) : Option Node :=
  match format with
  | .toml => Toml.read text
  | .yaml => Yaml.read text
  | .json =>
    match Json.read (Text.Utf8.encode text) with
    | .ok (.object fields) => some (.ofJson (.object fields))
    | _ => none

/-- The bytes of a file behind the mark that some start with. -/
def dropByteOrderMark : List UInt8 → List UInt8
  | 0xEF :: 0xBB :: 0xBF :: rest => rest
  | bytes => bytes

/-- The settings written in a file. -/
def readFile (name : String) (format : Format) (bytes : List UInt8) : Except LoadError Node :=
  match format.read? (Text.Utf8.decodeLossy (dropByteOrderMark bytes)) with
  | some n => .ok (n.writtenIn (.file name))
  | none => .error (.fileMalformed name)

/-! ## Finding the file -/

/-- The pieces of a text between slashes. -/
def pieces (cs : List Char) : List (List Char) :=
  cs.foldr (fun c ps => match c, ps with
    | '/', _ => [] :: ps
    | _, [] => [[c]]
    | _, p :: ps => (c :: p) :: ps) [[]]

/-- A relative path without empty steps and steps on the spot. -/
def relativeName (path : String) : Option String :=
  let cs := path.toList
  let kept := (pieces cs).filter fun p => !p.isEmpty && p ≠ ['.']
  if cs.head? = some '/' || kept.isEmpty then none
  else some ("/".intercalate (kept.map String.ofList))

/-- The extension of a file name, empty if there is none. -/
def extensionOf (name : String) : String :=
  let file := (pieces name.toList).getLastD []
  let behind := (file.reverse.takeWhile (· ≠ '.')).reverse
  if file.length ≤ behind.length + 1 then "" else String.ofList behind

/-- The file that a path leads to, with its format: the file itself, or else the
first one that there is with an extension appended. -/
def Files.find (files : Files) (path : String) :
    Except LoadError (String × Format × List UInt8) :=
  match relativeName path with
  | none => .error (.fileMissing path)
  | some name =>
    match files.lookup name with
    | some bytes =>
      match Format.extensions.lookup (extensionOf name) with
      | some format => .ok (name, format, bytes)
      | none => .error (.formatUnknown path)
    | none =>
      let tried := Format.extensions.findSome? fun (extension, format) =>
        let full := name ++ "." ++ extension
        (files.lookup full).map fun bytes => (full, format, bytes)
      match tried with
      | some found => .ok found
      | none => .error (.fileMissing path)

/-- The path that is looked at when none is given. -/
def defaultPath : String := "config"

/-- The settings that the file gives.  A given path must lead to a file. -/
def fromFile (files : Files) (path? : Option String) : Except LoadError Node :=
  match path? with
  | some path => (files.find path).bind fun (name, format, bytes) => readFile name format bytes
  | none =>
    match files.find defaultPath with
    | .ok (name, format, bytes) => readFile name format bytes
    | .error _ => .ok .empty

/-! ## Loading -/

/-- The tree of the file with the environment laid over it. -/
def tree (files : Files) (env : Environment) (path? : Option String) : Except LoadError Node :=
  (fromFile files path?).map fun file =>
    (Node.empty.placeAll file.entries).placeAll env.settings

/-- The settings of a service, from a file and the environment. -/
def load (files : Files) (env : Environment) (path? : Option String) :
    Except LoadError Settings := do
  let root ← tree files env path?
  let settings ← match ofNode root with
    | .ok settings => .ok settings
    | .error m => .error (.mismatch m)
  match settings.violations with
  | [] => return settings
  | violations => .error (.invalid violations)

/-- The record that tells of loaded settings. -/
def loadedLog (s : Settings) : LogRecord :=
  .settings .debug
    s!"Loaded configuration for {s.app.name} ({s.app.environment}) consuming {s.bus.entity}"

/-- The name of the file with further variables. -/
def variablesFile : String := ".env"

/-- The environment with the variables of the file that is named for them. -/
def extendedEnvironment (files : Files) (env : Environment) : Environment :=
  match files.lookup variablesFile with
  | some bytes => DotEnv.extend env bytes
  | none => env

end PeekLock.Settings
