import PeekLock.Pool.Basic
import PeekLock.Schedule

/-!
# PeekLock.Pool.Drill

A pool put through its paces: a list of commands, carried out one after
the other under a virtual clock, with a report after each.

One millisecond passes after every command, so that whatever the command
set off has happened when the report is taken.
-/

namespace PeekLock.Pool.Drill

/-- What a worker does. -/
inductive Chore where
  /-- Waits for the stop token, and then for so many milliseconds. -/
  | untilStopped (ms : Nat)
  /-- Returns after so many milliseconds. -/
  | timed (ms : Nat)
  /-- Never returns. -/
  | stuck
  /-- Panics after so many milliseconds. -/
  | panics (ms : Nat) (text : String)
  deriving DecidableEq, Repr

/-- What the drill does. -/
inductive Command where
  | spawn (chore : Chore)
  | shutdown (timeout : Nat)
  /-- Cancels the stop token from outside. -/
  | cancel
  | sleep (ms : Nat)
  /-- Drops the pool; its workers stay. -/
  | drop
  deriving DecidableEq, Repr

/-- The result of a command. -/
inductive Answer where
  | ok
  /-- Whether all workers ended in time. -/
  | drained (all : Bool)
  deriving DecidableEq, Repr

/-- What the tasks of a drill share. -/
structure World where
  pool : Pool := {}
  dropped : Bool := false
  answer : Option Answer := none
  logs : List LogRecord := []
  deriving Inhabited

/-- The tasks of a drill. -/
inductive Task where
  /-- A worker about to begin. -/
  | fresh (worker : Nat) (chore : Chore)
  /-- A worker that waits for the token. -/
  | watching (worker : Nat) (ms : Nat)
  /-- A worker that ends at a point in time. -/
  | timing (worker : Nat) (due : Nat) (how : Exit)
  /-- A worker that never ends. -/
  | hanging
  | command (c : Command)
  | shuttingDown (s : Shutdown)
  /-- The drill itself, asleep. -/
  | sleeping (due : Nat)

/-- Whether a task can go on. -/
def isReady (now : Nat) (w : World) : Task → Bool
  | .fresh .. => true
  | .watching .. => w.pool.stopped
  | .timing _ due _ => due ≤ now
  | .hanging => false
  | .command _ => true
  | .shuttingDown s => s.isReady now w.pool
  | .sleeping due => due ≤ now

/-- When a task goes on by itself. -/
def deadline? : Task → Option Nat
  | .timing _ due _ => some due
  | .shuttingDown s => s.deadline?
  | .sleeping due => some due
  | _ => none

/-- One step of a task. -/
def step (now : Nat) (w : World) : Task → Turn World Task
  | .fresh worker chore =>
    { shared := w
      task := some <| match chore with
        | .untilStopped ms => .watching worker ms
        | .timed ms => .timing worker (now + ms) .returned
        | .stuck => .hanging
        | .panics ms text => .timing worker (now + ms) (.panicked text) }
  | .watching worker ms => { shared := w, task := some (.timing worker (now + ms) .returned) }
  | .timing worker _ how => { shared := { w with pool := w.pool.finish worker how }, task := none }
  | .hanging => { shared := w, task := some .hanging }
  | .command (.spawn chore) =>
    let (worker, pool) := w.pool.spawn
    { shared := { w with pool := pool, answer := some .ok }
      task := none
      started := [.fresh worker chore] }
  | .command (.shutdown timeout) =>
    { shared := w, task := some (.shuttingDown (.stopping timeout)) }
  | .command .cancel =>
    { shared := { w with pool := w.pool.cancel, answer := some .ok }, task := none }
  | .command (.sleep ms) => { shared := w, task := some (.sleeping (now + ms)) }
  | .command .drop =>
    { shared := { w with pool := w.pool.cancel, dropped := true, answer := some .ok }
      task := none }
  | .shuttingDown s =>
    let r := s.step now w.pool
    let w := { w with pool := r.state, logs := w.logs ++ r.logs }
    match r.progress with
    | .on s => { shared := w, task := some (.shuttingDown s) }
    | .done all => { shared := { w with answer := some (.drained all) }, task := none }
  | .sleeping _ => { shared := { w with answer := some .ok }, task := none }

/-- The behaviour of the tasks of a drill. -/
def behaviour : Behaviour World Task := ⟨isReady, deadline?, step⟩

/-- What is seen after a command. -/
structure Report where
  answer : Option Answer
  /-- How long the command took. -/
  elapsed : Nat
  now : Nat
  pool : Pool
  dropped : Bool
  logs : List LogRecord

/-- Carries out the commands, one after the other. -/
def run : List Command → Schedule World Task → List Report
  | [], _ => []
  | c :: rest, s =>
    let began := s.now
    let fresh := { s with shared := { s.shared with answer := none, logs := [] } }
    let answered := fresh.perform behaviour (·.answer.isSome) (.command c)
    let after := answered.pass behaviour 1
    let w := after.shared
    ⟨answered.shared.answer, answered.now - began, after.now, w.pool, w.dropped, w.logs⟩
      :: run rest after

/-- The reports of a drill that begins with an empty pool. -/
def reports (commands : List Command) : List Report := run commands { shared := {} }

end PeekLock.Pool.Drill
