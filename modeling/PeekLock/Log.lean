/-!
# PeekLock.Log

Log records.

A record says how grave it is, which part of the program wrote it, and
what happened.  Parts are named by a path; a consumer writes under the
target that its settings name instead.
-/

namespace PeekLock

/-- How grave a record is, the gravest first. -/
inductive Level where
  | error
  | warn
  | info
  | debug
  | trace
  deriving DecidableEq, Repr, Inhabited

/-- The name of a level. -/
def Level.text : Level → String
  | .error => "ERROR"
  | .warn => "WARN"
  | .info => "INFO"
  | .debug => "DEBUG"
  | .trace => "TRACE"

/-- The rank of a level; graver levels rank lower. -/
def Level.rank : Level → Nat
  | .error => 1
  | .warn => 2
  | .info => 3
  | .debug => 4
  | .trace => 5

/-- Where a record comes from. -/
inductive Origin where
  /-- A part of the program, by its path. -/
  | part (path : String)
  /-- A target chosen in the settings. -/
  | target (name : String)
  deriving DecidableEq, Repr, Inhabited

/-- The text of an origin. -/
def Origin.text : Origin → String
  | .part path => path
  | .target name => name

/-- A log record. -/
structure LogRecord where
  level : Level
  origin : Origin
  text : String
  deriving DecidableEq, Repr, Inhabited

namespace LogRecord

/-- A record of the in-memory bus. -/
def memory (level : Level) (text : String) : LogRecord :=
  ⟨level, .part "servicekit::service_bus::in_memory", text⟩

/-- A record of the remote bus. -/
def remote (level : Level) (text : String) : LogRecord :=
  ⟨level, .part "servicekit::service_bus::azure", text⟩

/-- A record of the settings. -/
def settings (level : Level) (text : String) : LogRecord :=
  ⟨level, .part "servicekit::config", text⟩

/-- A record of the retrying calls. -/
def retry (level : Level) (text : String) : LogRecord :=
  ⟨level, .part "servicekit::utils::retry", text⟩

/-- A record of the worker pool. -/
def pool (level : Level) (text : String) : LogRecord :=
  ⟨level, .part "servicekit::taskpool", text⟩

/-- A record of the logger itself. -/
def logger (level : Level) (text : String) : LogRecord :=
  ⟨level, .part "servicekit::logger", text⟩

end LogRecord

end PeekLock
