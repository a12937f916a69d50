import PeekLock.Pool.Basic

/-!
# PeekLock.Pool.Life

Any number of shutdowns of one pool, one after the other, with the workers
that are started in between.

A life is a pool with every shutdown that was ever begun on it.  A shutdown
has the pool to itself: no worker is started and no other shutdown begins
before it is over.  A move starts a worker, begins a shutdown, lets it take
its next step, drops it, cancels the stop token from outside, lets a worker
end, or lets time pass.  Which move comes next is left open, and so is what
the workers do.
-/

namespace PeekLock.Pool

/-- Whether a worker was started and has not ended. -/
def isAtWork (p : Pool) (worker : Nat) : Bool :=
  worker < p.spawned && (p.exits.get? worker).isNone

/-- The workers that were started and have not ended. -/
def atWork (p : Pool) : List Nat := (List.range p.spawned).filter p.isAtWork

/-- The workers that a shutdown has taken over from the pool. -/
def Shutdown.workers : Shutdown → List Nat
  | .stopping _ => []
  | .joining workers _ => workers

/-- A shutdown that is over. -/
structure PastShutdown where
  /-- The workers that it has taken over. -/
  workers : List Nat
  /-- Whether all of them had ended, as it has told; nothing if it was dropped. -/
  verdict : Option Bool
  deriving DecidableEq, Repr

/-- A pool with every shutdown that was ever begun on it. -/
structure Life where
  /-- The time, in milliseconds. -/
  now : Nat := 0
  pool : Pool := {}
  /-- The shutdown that has the pool. -/
  current : Option Shutdown := none
  /-- The shutdowns that are over, the oldest first. -/
  past : List PastShutdown := []
  deriving DecidableEq

/-- What can happen next. -/
inductive Move where
  | spawn
  /-- A shutdown begins that waits for so many milliseconds. -/
  | shutdown (wait : Nat)
  /-- The shutdown takes its next step. -/
  | advance
  | drop
  /-- The stop token is cancelled from outside. -/
  | cancel
  /-- A worker ends. -/
  | finish (worker : Nat) (how : Exit)
  | wait (ms : Nat)

namespace Life

/-- The workers that the shutdown on its way waits for. -/
def awaited (s : Life) : List Nat := s.current.elim [] Shutdown.workers

/-- A shutdown is over. -/
def conclude (s : Life) (c : Shutdown) (pool : Pool) (verdict : Option Bool) : Life :=
  { s with pool := pool, current := none, past := s.past ++ [⟨c.workers, verdict⟩] }

/-- The shutdown takes its next step. -/
def advance (s : Life) (c : Shutdown) : Life :=
  let r := c.step s.now s.pool
  match r.progress with
  | .on c' => { s with pool := r.state, current := some c' }
  | .done all => s.conclude c r.state (some all)

/-- What a move leads to, if it can happen. -/
def after (s : Life) : Move → Option Life
  | .spawn => if s.current.isNone then some { s with pool := s.pool.spawn.2 } else none
  | .shutdown wait =>
    if s.current.isNone then some { s with current := some (.stopping wait) } else none
  | .advance =>
    match s.current with
    | some c => if c.isReady s.now s.pool then some (s.advance c) else none
    | none => none
  | .drop => s.current.map fun c => s.conclude c s.pool none
  | .cancel => some { s with pool := s.pool.cancel }
  | .finish worker how =>
    if s.pool.isAtWork worker then some { s with pool := s.pool.finish worker how } else none
  | .wait ms => some { s with now := s.now + ms }

/-- What some moves lead to, one after the other. -/
def run (s : Life) (moves : List Move) : Option Life := moves.foldlM after s

/-- One life leads to another. -/
inductive Leads : Life → Life → Prop where
  | refl (s : Life) : Leads s s
  | step {s t u : Life} {m : Move} : Leads s t → t.after m = some u → Leads s u

/-- A life that can come about. -/
def Reachable (s : Life) : Prop := Leads {} s

end Life

end PeekLock.Pool
