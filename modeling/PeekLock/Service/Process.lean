import PeekLock.Logger
import PeekLock.Service.CommandLine
import PeekLock.Service.Run

/-!
# PeekLock.Service.Process

The service as a process: from its arguments, its environment and the
files around it to what it prints and how it ends.

Settings that cannot be loaded, and whatever stops the service before it
consumes, end it with exit code 1 and a report of the causes; a command
line that is not understood ends it with code 2.  There is no transport to
a remote bus in this library, so an address of one counts as malformed.
-/

namespace PeekLock.Service

/-! ## Reports of failures -/

/-- The lines of a text. -/
def linesOf (text : String) : List String := text.splitOn "\n"

/-- A text behind a lead, its further lines indented. -/
def indented (lead margin text : String) : String :=
  lead ++ ("\n" ++ margin).intercalate (linesOf text)

/-- A number, right-aligned in five places, and a colon. -/
def numberLead (n : Nat) : String :=
  let digits := toString n
  String.ofList (List.replicate (5 - digits.length) ' ') ++ digits ++ ": "

/-- The causes behind the first message; several are numbered. -/
def causesText : List String → String
  | [] => ""
  | [cause] => "\n\nCaused by:\n" ++ indented "    " "    " cause
  | causes =>
    let items := (List.range causes.length).zip causes
    "\n\nCaused by:\n" ++
      "\n".intercalate (items.map fun (n, cause) => indented (numberLead n) "       " cause)

/-- What is printed about a failure. -/
def Failure.report (f : Failure) : String :=
  match f.causes with
  | [] => "Error: \n"
  | first :: rest => "Error: " ++ first ++ causesText rest ++ "\n"

/-- What is printed about a command line that is not carried out. -/
def UsageError.report : UsageError → String
  | .helpWanted => CommandLine.help
  | .unknownArgument => "error: unexpected argument found\n"
  | .valueMissing => "error: a value is required but none was supplied\n"
  | .valueInvalid => "error: invalid value\n"
  | .valueUnwanted => "error: unexpected value found\n"
  | .repeated => "error: an argument cannot be used multiple times\n"

/-! ## The process -/

/-- How far a process has come. -/
inductive Status where
  | exited (code : Nat)
  /-- It consumes, until it is stopped from outside. -/
  | consuming (s : Settings) (state : State)

/-- What the remote bus says about an address that it cannot read. -/
def malformedAddress : String := "Connection string is malformed"

/-- The beginning of a run without a way to any remote bus. -/
def offline (s : Settings) (inMemory : Bool) : State :=
  let state := atStart inMemory Identifier.counting
  let refusals := List.replicate s.retry.policy.attempts (some malformedAddress)
  let bus := state.shared.bus
  let remote := { bus.remote with network := bus.remote.network.arrange "connect" refusals }
  { state with shared := { state.shared with bus := { bus with remote := remote } } }

/-- The part of a run before it waits to be stopped. -/
def launch (s : Settings) (c : CommandLine) (time : String) : Act Unit := do
  connect s c.inMemory
  if 0 < c.produce then produce s (fun _ => time) c.produce
  createConsumer s
  startConsumer
  note .info s!"Consuming {s.bus.consumer.entity} (press Ctrl+C to stop)"

/-- Ends a process with a failure. -/
def fail (o : Output) (f : Failure) : Output × Status := (o.complain f.report, .exited 1)

/-- A run whose records have been written. -/
def withoutLogs (state : State) : State :=
  { state with shared := { state.shared with logs := [] } }

/-- Starts the service with loaded settings. -/
def serve (o : Output) (s : Settings) (c : CommandLine) : Output × Status :=
  let (_, o) := o.install s.logging
  let o := o.log ⟨.info, .part "demo_service",
    s!"Starting {s.app.name} {s.app.version} in {s.app.environment}"⟩
  let (result, state) := (launch s c o.time).run.run (offline s c.inMemory)
  let o := o.logAll state.shared.logs
  match result with
  | .ok () => (o, .consuming s (withoutLogs state))
  | .error failure => fail o failure

/-- Runs the service as far as it gets without being stopped from outside. -/
def process (arguments : List String) (environment : Settings.Environment)
    (files : Settings.Files) (time : String) : Output × Status :=
  let o : Output := { files := files, time := time }
  match CommandLine.read arguments with
  | .error .helpWanted => (o.print CommandLine.help, .exited 0)
  | .error e => (o.complain e.report, .exited e.exitCode)
  | .ok c =>
    let environment := Settings.extendedEnvironment files environment
    match Settings.load files environment c.config with
    | .error e => fail o ⟨"Failed to load configuration" :: e.chain⟩
    | .ok s => serve o s c

/-! ## The end -/

/-- The second half of a run: it consumes for so many milliseconds, stops, and
reports the counters. -/
def conclude (s : Settings) (ms : Nat) : Act Unit := do
  let _ ← ask (.sleep ms)
  note .info "Shutting down gracefully..."
  let answer ← ask (.stop consumerName none)
  modify fun state =>
    let w := state.shared
    { state with shared := w.write [w.stats.report state.now] }
  match errorOf answer with
  | some e => throw (.within "Consumer did not stop cleanly" e)
  | none => note .info s!"{s.app.name} stopped"

/-- Ends a process that consumes, so many milliseconds after it began to; the
exit code comes with what it wrote. -/
def finish (o : Output) (s : Settings) (state : State) (ms : Nat) : Output × Nat :=
  let (result, state) := (conclude s ms).run.run state
  let o := o.logAll state.shared.logs
  match result with
  | .ok () => (o, 0)
  | .error failure => (o.complain failure.report, 1)

end PeekLock.Service
