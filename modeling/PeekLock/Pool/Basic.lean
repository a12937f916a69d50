import PeekLock.Duration
import PeekLock.Progress
import PeekLock.Table
import PeekLock.Text.Quoted

/-!
# PeekLock.Pool.Basic

A set of worker tasks that share one stop token.

The pool counts the workers that are still active and remembers how each
of the others ended.  A shutdown cancels the token, takes over every
handle that the pool still has, and waits for those workers for a limited
time.  Workers that are still running then stay on their own: the pool has
no handle to them any more, but goes on counting them.
-/

namespace PeekLock

/-- How a worker ended. -/
inductive Exit where
  | returned
  | panicked (text : String)
  deriving DecidableEq, Repr, Inhabited

/-- A pool of workers, numbered in the order of their start. -/
structure Pool where
  /-- Whether the stop token is cancelled. -/
  stopped : Bool := false
  /-- The workers that no shutdown has taken over yet. -/
  handles : List Nat := []
  /-- The number of workers started so far. -/
  spawned : Nat := 0
  /-- The number of workers that have not ended. -/
  active : Nat := 0
  /-- How the others ended. -/
  exits : Table Nat Exit := .empty
  deriving DecidableEq, Inhabited

namespace Pool

/-- The number of the next worker, and the pool with it. -/
def spawn (p : Pool) : Nat × Pool :=
  (p.spawned,
    { p with
      handles := p.handles ++ [p.spawned]
      spawned := p.spawned + 1
      active := p.active + 1 })

/-- A worker ends. -/
def finish (p : Pool) (worker : Nat) (how : Exit) : Pool :=
  { p with active := p.active - 1, exits := p.exits.put worker how }

/-- Cancels the stop token. -/
def cancel (p : Pool) : Pool := { p with stopped := true }

/-- The number of workers that the pool has a handle to. -/
def size (p : Pool) : Nat := p.handles.length

/-- Whether all of some workers have ended. -/
def haveEnded (p : Pool) (workers : List Nat) : Bool :=
  workers.all fun w => (p.exits.get? w).isSome

/-- The record of a worker that did not return; it leaves open which one. -/
def abnormalLog (text : String) : LogRecord :=
  .pool .error
    ("Worker task ended abnormally: task N panicked with message " ++ Text.quoted text)

/-- The records of those of some workers that did not return. -/
def abnormalLogs (p : Pool) (workers : List Nat) : List LogRecord :=
  workers.filterMap fun w =>
    match p.exits.get? w with
    | some (.panicked text) => some (abnormalLog text)
    | _ => none

/-! ## Shutdown -/

/-- The points of a shutdown. -/
inductive Shutdown where
  /-- About to cancel the token; waits at most so many milliseconds then. -/
  | stopping (wait : Nat)
  /-- Waiting for some workers until a point in time. -/
  | joining (workers : List Nat) (deadline : Nat)
  deriving DecidableEq, Repr

namespace Shutdown

/-- Whether a shutdown can go on. -/
def isReady (now : Nat) (p : Pool) : Shutdown → Bool
  | .stopping _ => true
  | .joining workers deadline => p.haveEnded workers || deadline ≤ now

/-- When a shutdown goes on at the latest. -/
def deadline? : Shutdown → Option Nat
  | .stopping _ => none
  | .joining _ deadline => some deadline

/-- One step of a shutdown; the result tells whether all workers have ended. -/
def step (now : Nat) (p : Pool) : Shutdown → Step Pool Shutdown Bool
  | .stopping wait =>
    { state := { p.cancel with handles := [] }
      progress := .on (.joining p.handles (now + wait)) }
  | .joining workers _ =>
    if p.haveEnded workers then
      { state := p, logs := p.abnormalLogs workers, progress := .done true }
    else { state := p, progress := .done false }

end Shutdown

end Pool

end PeekLock
