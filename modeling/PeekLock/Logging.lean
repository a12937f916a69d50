import PeekLock.Log
import PeekLock.Text.LowerCase

/-!
# PeekLock.Logging

Which records a logger keeps.

A filter is named in the settings, in any case; a name that is none of the
levels stands for `info`.
-/

namespace PeekLock

/-- Down to which level records are kept. -/
inductive LevelFilter where
  | off
  | upTo (level : Level)
  deriving DecidableEq, Repr, Inhabited

namespace LevelFilter

/-- The filter that a name stands for. -/
def ofName (name : String) : LevelFilter :=
  let name := Text.lowerCase name
  if name = "trace" then .upTo .trace
  else if name = "debug" then .upTo .debug
  else if name = "warn" then .upTo .warn
  else if name = "error" then .upTo .error
  else if name = "off" then .off
  else .upTo .info

/-- The name of a filter in capitals. -/
def text : LevelFilter → String
  | .off => "OFF"
  | .upTo level => level.text

/-- Whether a filter keeps a level. -/
def keeps : LevelFilter → Level → Bool
  | .off, _ => false
  | .upTo most, level => level.rank ≤ most.rank

end LevelFilter

end PeekLock
