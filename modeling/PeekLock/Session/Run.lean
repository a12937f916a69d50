import PeekLock.Session.Task

/-!
# PeekLock.Session.Run

Sessions: commands carried out one after the other under a virtual clock,
with a report after each.

One millisecond passes after every command, so that whatever the command
set off has happened when the report is taken.
-/

namespace PeekLock.Session

/-- What is seen after a command. -/
structure Report where
  answer : Option Answer
  now : Nat
  /-- The session as it stands, with what was logged, handled, requested and sent
  since the last report. -/
  world : World

instance : Inhabited Report := ⟨⟨none, 0, {}⟩⟩

/-- A session between two commands. -/
abbrev State := Schedule World Task

/-- A session at its beginning, whose identifiers come from some supply. -/
def State.initial (medium : Medium) (supply : Identifier.Supply) : State :=
  { shared := { medium, bus := { broker := { supply }, remote := { supply } } } }

/-- Forgets what has been reported. -/
def World.forget (w : World) : World :=
  let remote := w.bus.remote
  let network := { remote.network with requests := [], sent := [] }
  { w with
    answer := none
    logs := []
    handled := []
    bus := { w.bus with remote := { remote with network := network } } }

/-- Carries out a command. -/
def perform (c : Command) (s : State) : Report × State :=
  let fresh := { s with shared := s.shared.forget }
  let answered := fresh.perform behaviour (·.answer.isSome) (.command c)
  let after := answered.pass behaviour 1
  (⟨after.shared.answer, after.now, after.shared⟩, after)

/-- Carries out the commands, one after the other. -/
def run : List Command → State → List Report
  | [], _ => []
  | c :: rest, s =>
    let (report, s) := perform c s
    report :: run rest s

end PeekLock.Session
