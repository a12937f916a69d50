/-!
# PeekLock.Schedule

Tasks that take turns under a virtual clock.

A task is a value of some type `τ`; what the tasks share is a value of
type `σ`.  A `Behaviour` says when a task can go on and what one step of
it does.  Steps take no time.  A task that can go on keeps its turn; one
that cannot waits, and is woken as soon as a step of another task or the
clock makes it ready.  Woken tasks take turns in the order in which they
were woken, and tasks that are woken together in the order in which they
began to wait.  Only when every task waits does the clock move, to the
earliest time that one of them waits for.

The functions here fix one order of steps; `Behaviour.step` is the same
for every other order.
-/

namespace PeekLock

/-- What one step of a task leaves behind. -/
structure Turn (σ τ : Type) where
  shared : σ
  /-- The rest of the task; nothing if it has ended. -/
  task : Option τ
  /-- Tasks that the step has started. -/
  started : List τ := []

/-- What tasks do. -/
structure Behaviour (σ τ : Type) where
  /-- Whether a task can take a step at that time. -/
  isReady : Nat → σ → τ → Bool
  /-- The time at which a task goes on even if nothing else happens. -/
  deadline? : τ → Option Nat
  /-- One step of a task at that time. -/
  step : Nat → σ → τ → Turn σ τ

/-- Tasks on their way. -/
structure Schedule (σ τ : Type) where
  now : Nat := 0
  shared : σ
  /-- The tasks that can go on, in the order in which they were woken. -/
  ready : List τ := []
  /-- The tasks that wait, in the order in which they began to. -/
  waiting : List τ := []

namespace Schedule

variable {σ τ : Type}

/-- Wakes the tasks that can go on. -/
def wake (b : Behaviour σ τ) (s : Schedule σ τ) : Schedule σ τ :=
  let (woken, asleep) := s.waiting.partition (b.isReady s.now s.shared)
  { s with ready := s.ready ++ woken, waiting := asleep }

/-- Puts a task that has just taken a step where it belongs: it keeps its turn
while it can go on, and waits otherwise. -/
def replace (b : Behaviour σ τ) (task : Option τ) (s : Schedule σ τ) : Schedule σ τ :=
  match task with
  | none => s
  | some t =>
    if b.isReady s.now s.shared t then { s with ready := t :: s.ready }
    else { s with waiting := s.waiting ++ [t] }

/-- Gives the turn to a task. -/
def start (t : τ) (s : Schedule σ τ) : Schedule σ τ := { s with ready := t :: s.ready }

/-- Lets the first task take a step.  A task that was woken but cannot go on
any more goes back to waiting. -/
def turn (b : Behaviour σ τ) (s : Schedule σ τ) : Option (Schedule σ τ) :=
  match s.ready with
  | [] => none
  | t :: rest =>
    let s := { s with ready := rest }
    if b.isReady s.now s.shared t then
      let r := b.step s.now s.shared t
      let s := wake b { s with shared := r.shared }
      some (replace b r.task { s with ready := s.ready ++ r.started })
    else some { s with waiting := s.waiting ++ [t] }

/-- The earliest of some times. -/
def earliest : List Nat → Option Nat
  | [] => none
  | t :: rest => some (rest.foldl min t)

/-- Moves the clock to the earliest time that a task waits for, if that is not
beyond the limit. -/
def advance (b : Behaviour σ τ) (limit : Option Nat) (s : Schedule σ τ) : Option (Schedule σ τ) :=
  match earliest (s.waiting.filterMap b.deadline?) with
  | none => none
  | some t =>
    if limit.all (t ≤ ·) then some (wake b { s with now := max s.now t }) else none

/-- The next state, unless nothing can happen any more. -/
def next (b : Behaviour σ τ) (limit : Option Nat) (s : Schedule σ τ) : Option (Schedule σ τ) :=
  (turn b s).or (advance b limit s)

/-- Goes on until the condition holds, nothing can happen within the limit, or
the fuel is used up. -/
def runUntil (b : Behaviour σ τ) (limit : Option Nat) (stop : σ → Bool) :
    (fuel : Nat) → Schedule σ τ → Schedule σ τ
  | 0, s => s
  | fuel + 1, s =>
    if stop s.shared then s
    else
      match next b limit s with
      | none => s
      | some s => runUntil b limit stop fuel s

/-- More steps than any run takes. -/
def ample : Nat := 1000000000000

/-- Gives the turn to a task, and goes on until the condition holds. -/
def perform (b : Behaviour σ τ) (stop : σ → Bool) (t : τ) (s : Schedule σ τ) : Schedule σ τ :=
  runUntil b none stop ample (start t s)

/-- Lets so many milliseconds pass, with everything that is due until then. -/
def pass (b : Behaviour σ τ) (ms : Nat) (s : Schedule σ τ) : Schedule σ τ :=
  let limit := s.now + ms
  let s := runUntil b (some limit) (fun _ => false) ample (wake b s)
  { s with now := max s.now limit }

end Schedule

end PeekLock
