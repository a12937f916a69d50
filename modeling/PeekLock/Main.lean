import PeekLock.Service.Process

/-!
# PeekLock.Main

The program: it hands its arguments, its environment and the files it may
need to `Service.process`, and writes what comes back.

A service that consumes does so until its standard input ends.  Its clock
is then moved by as long as that took.
-/

namespace PeekLock.Main

/-- The bytes of a file, if it can be read. -/
def readFile? (name : String) : IO (Option (List UInt8)) := do
  try
    let bytes ← IO.FS.readBinFile name
    return some bytes.toList
  catch _ => return none

/-- The entries of a text of assignments that end in zero bytes. -/
def assignments (bytes : List UInt8) : Settings.Environment :=
  let texts := (Text.Utf8.textOf bytes).splitOn "\x00"
  texts.filterMap fun t =>
    match t.splitOn "=" with
    | name :: value :: more => some (name, "=".intercalate (value :: more))
    | _ => none

/-- The environment of the process. -/
def environment : IO Settings.Environment := do
  return assignments ((← readFile? "/proc/self/environ").getD [])

/-- The numbers at the front of the lines that begin with a word. -/
def numberAfter (word : String) (text : String) : Nat :=
  let found := (Service.linesOf text).findSome? fun line =>
    match line.splitOn " " with
    | first :: second :: _ => if first = word then second.toNat? else none
    | _ => none
  found.getD 0

/-- The seconds since 1970: when the system was started, and how long it has
been up. -/
def secondsNow : IO Nat := do
  let text (name : String) : IO String := return Text.Utf8.textOf ((← readFile? name).getD [])
  let started := numberAfter "btime" (← text "/proc/stat")
  let up := ((← text "/proc/uptime").splitOn ".").headD ""
  return started + up.toNat?.getD 0

/-- A point in time as log lines show it. -/
def timeText (seconds : Nat) : String :=
  (Timestamp.ofSeconds seconds 0).whole.map fun c => if c = 'T' then ' ' else c

/-- The files with some names that there are. -/
def readFiles (names : List String) : IO Settings.Files := do
  let found ← names.mapM fun name => do
    return (← readFile? name).map fun bytes => (name, bytes)
  return found.filterMap id

/-- The names that a settings file may have. -/
def candidates (path : String) : List String :=
  path :: Settings.Format.extensions.map fun (extension, _) => path ++ "." ++ extension

/-- The files that the service may need before it logs. -/
def settingsFiles (arguments : List String) : IO Settings.Files := do
  let path := match Service.CommandLine.read arguments with
    | .ok c => c.config
    | .error _ => none
  readFiles (Settings.variablesFile :: candidates (path.getD Settings.defaultPath))

/-- The files with the one that log lines are appended to. -/
def withLogFile (arguments : List String) (env : Settings.Environment) (files : Settings.Files) :
    IO Settings.Files := do
  let env := Settings.extendedEnvironment files env
  let path := match Service.CommandLine.read arguments with
    | .ok c => c.config
    | .error _ => none
  match Settings.load files env path with
  | .error _ => return files
  | .ok s =>
    match s.logging.file with
    | none => return files
    | some name => return files ++ (← readFiles [name])

/-- Writes what a process has written: its texts, and the files that changed. -/
def write (before after : Output) : IO Unit := do
  (← IO.getStdout).putStr (String.ofList (after.stdout.toList.drop before.stdout.length))
  (← IO.getStderr).putStr (String.ofList (after.stderr.toList.drop before.stderr.length))
  for (name, bytes) in after.files do
    if before.files.lookup name ≠ some bytes then
      IO.FS.writeBinFile name ⟨bytes.toArray⟩

/-- Waits for the end of the standard input. -/
partial def waitForEnd (input : IO.FS.Stream) : IO Unit := do
  let line ← input.getLine
  if line.isEmpty then return else waitForEnd input

/-- Runs the service. -/
def run (arguments : List String) : IO UInt32 := do
  let env ← environment
  let files ← withLogFile arguments env (← settingsFiles arguments)
  let time := timeText (← secondsNow)
  let (output, status) := Service.process arguments env files time
  write { files := files, time := time } output
  match status with
  | .exited code => return .ofNat code
  | .consuming settings state =>
    let began ← IO.monoMsNow
    waitForEnd (← IO.getStdin)
    let (final, code) := Service.finish output settings state ((← IO.monoMsNow) - began)
    write output final
    return .ofNat code

end PeekLock.Main

/-- Runs the service with the arguments of the command line. -/
def main (arguments : List String) : IO UInt32 := PeekLock.Main.run arguments
