import PeekLock.Logging
import PeekLock.Settings.Load

/-!
# PeekLock.Logger

Writing log records as lines.

A logger appends its lines to a file, or writes them to the terminal with
the level in colour if no file is named or the file cannot be opened.  A
process has one logger at most.
-/

namespace PeekLock

/-! ## Lines -/

/-- Where a logger writes its lines. -/
inductive Destination where
  | file (name : String)
  | terminal
  deriving DecidableEq, Repr, Inhabited

/-- A logger. -/
structure Logger where
  filter : LevelFilter
  destination : Destination
  deriving DecidableEq, Repr, Inhabited

/-- The number of the colour of a level on a terminal. -/
def Level.colour : Level → Nat
  | .error => 31
  | .warn => 33
  | .info => 32
  | .debug => 94
  | .trace => 90

/-- The name of a level in colour. -/
def Level.coloured (l : Level) : String := s!"\x1b[{l.colour}m{l.text}\x1b[0m"

/-- The line of a record that is written at some time. -/
def Logger.line (l : Logger) (time : String) (r : LogRecord) : String :=
  let level := match l.destination with
    | .file _ => r.level.text
    | .terminal => r.level.coloured
  s!"[{time} {level} {r.origin.text}] {r.text}\n"

/-! ## Opening files -/

/-- Why a file cannot be opened. -/
inductive OpenError where
  | notFound
  | notDirectory
  | isDirectory
  | nameTooLong
  deriving DecidableEq, Repr, Inhabited

/-- The message of an error. -/
def OpenError.message : OpenError → String
  | .notFound => "No such file or directory (os error 2)"
  | .notDirectory => "Not a directory (os error 20)"
  | .isDirectory => "Is a directory (os error 21)"
  | .nameTooLong => "File name too long (os error 36)"

namespace Settings.Files

/-- Whether some file lies in a directory. -/
def hasDirectory (files : Files) (name : String) : Bool :=
  let start := (name ++ "/").toList
  files.any fun f => start.isPrefixOf f.1.toList

/-- The most bytes of one step of a path. -/
def maxStepBytes : Nat := 255

/-- The step `step` from the directory with the given name; the directory where
the service runs has no name. -/
def join (directory step : String) : String :=
  if directory.isEmpty then step else directory ++ "/" ++ step

/-- Goes along the steps of a path to a file that can be appended to. -/
def walk (files : Files) (directory : String) : List String → Except OpenError String
  | [] => .error .isDirectory
  | [step] =>
    let name := join directory step
    if maxStepBytes < step.utf8ByteSize then .error .nameTooLong
    else if files.hasDirectory name then .error .isDirectory
    else .ok name
  | step :: rest =>
    let name := join directory step
    if maxStepBytes < step.utf8ByteSize then .error .nameTooLong
    else if files.hasDirectory name then walk files name rest
    else if (files.lookup name).isSome then .error .notDirectory
    else .error .notFound

/-- The file that a path names for appending, which is created if it is not
there yet.  Only paths below the directory where the service runs lead to a
file. -/
def openForAppending (files : Files) (path : String) : Except OpenError (String × Files) :=
  let steps := (pieces path.toList).map String.ofList
  if path.isEmpty || steps.head? = some "" then .error .notFound
  else
    match files.walk "" (steps.filter fun s => s ≠ "" && s ≠ ".") with
    | .error e => .error e
    | .ok name =>
      if steps.getLast? = some "" || steps.getLast? = some "." then
        .error (if (files.lookup name).isSome then .notDirectory else .isDirectory)
      else if (files.lookup name).isSome then .ok (name, files)
      else .ok (name, files ++ [(name, [])])

/-- Appends a text to a file. -/
def append (files : Files) (name text : String) : Files :=
  files.map fun f => if f.1 = name then (f.1, f.2 ++ Text.Utf8.bytesOf text) else f

end Settings.Files

/-! ## Processes -/

/-- What a process has written so far. -/
structure Output where
  stdout : String := ""
  stderr : String := ""
  files : Settings.Files := []
  logger : Option Logger := none
  /-- The time that is written in log lines. -/
  time : String
  deriving Inhabited

namespace Output

/-- Writes to the standard output. -/
def print (o : Output) (text : String) : Output := { o with stdout := o.stdout ++ text }

/-- Writes to the standard error output. -/
def complain (o : Output) (text : String) : Output := { o with stderr := o.stderr ++ text }

/-- Logs a record, if a logger is there and keeps it. -/
def log (o : Output) (r : LogRecord) : Output :=
  match o.logger with
  | none => o
  | some l =>
    if l.filter.keeps r.level then
      match l.destination with
      | .file name => { o with files := o.files.append name (l.line o.time r) }
      | .terminal => o.complain (l.line o.time r)
    else o

/-- Logs some records. -/
def logAll (o : Output) (rs : List LogRecord) : Output := rs.foldl log o

/-- The message of a second logger that is refused. -/
def alreadyInstalled : String :=
  "attempted to set a logger after the logging system was already initialized"

/-- The record with which a logger begins. -/
def installedLog (s : LoggingSettings) : LogRecord :=
  .logger .info s!"Logger initialized with level: {s.level}"

/-- Installs a logger, unless there is one; tells whether it did, and if so says
where the lines go. -/
def install (o : Output) (s : LoggingSettings) : Bool × Output :=
  let filter := LevelFilter.ofName s.level
  let place (o : Output) (d : Destination) (notice : String) : Bool × Output :=
    match o.logger with
    | some _ => (false, o)
    | none =>
      (true, ({ o with logger := some ⟨filter, d⟩ }.complain notice).log (installedLog s))
  match s.file with
  | none => place o .terminal ""
  | some path =>
    match o.files.openForAppending path with
    | .ok (name, files) =>
      place { o with files := files } (.file name) s!"Logging to file: {path}\n"
    | .error e =>
      let o := o.complain s!"Warning: Failed to open log file '{path}': {e.message}\n"
      place (o.complain "Continuing with logging to stderr.\n") .terminal ""

end Output

end PeekLock
