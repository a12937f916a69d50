import PeekLock.Retry.Run

/-!
# PeekLock.Retry.Course

Every course that a retried call can take.

The operation answers by the number of the attempt, and takes as long as it
likes.  A move lets the call try, lets the operation answer, ends a pause,
cancels the token, or lets time pass.  Which move comes next is left open;
where a pause is over and the token is cancelled, either may come first.
-/

namespace PeekLock.Retry

/-- Where a retried call is. -/
inductive Point (α : Type) where
  /-- About to look at the token and start the attempt of that number. -/
  | trying (attempt : Nat)
  /-- The operation runs. -/
  | calling (attempt : Nat)
  /-- Pausing after the attempt of that number, until a point in time. -/
  | pausing (attempt due : Nat)
  | ended (result : Except BusError α)

/-- A retried call on its way. -/
structure Course (α : Type) where
  /-- The time, in milliseconds. -/
  now : Nat := 0
  /-- How many attempts had been started when the token was cancelled, if it is. -/
  cancelledAfter : Option Nat := none
  point : Point α := .trying 0
  /-- When the operation was started. -/
  calls : List Nat := []
  /-- The pauses that were begun. -/
  pauses : List Duration := []
  logs : List LogRecord := []

/-- What can happen next. -/
inductive Course.Move where
  /-- The token is cancelled. -/
  | cancel
  /-- The call looks at the token, and starts an attempt or is over. -/
  | proceed
  /-- The operation answers. -/
  | answer
  /-- The pause is over. -/
  | wake
  /-- The pause ends because the token is cancelled. -/
  | breakOff
  | wait (ms : Nat)

namespace Course

variable {α : Type}

/-- The call is over. -/
def conclude (s : Course α) (result : Except BusError α) : Course α :=
  { s with point := .ended result }

/-- An attempt is started. -/
def begin (s : Course α) (attempt : Nat) : Course α :=
  { s with point := .calling attempt, calls := s.calls ++ [s.now] }

/-- The operation has answered. -/
def react (p : RetryPolicy) (s : Course α) (attempt : Nat) (answer : Except BusError α) :
    Course α :=
  match next p attempt answer with
  | .done result => s.conclude result
  | .giveUp e =>
    { s with logs := s.logs ++ [failureLog p attempt e] }.conclude (.error (exhausted p (some e)))
  | .pause e length =>
    { s with
      logs := s.logs ++ [failureLog p attempt e]
      pauses := s.pauses ++ [length]
      point := .pausing attempt (s.now + length.ticks) }

/-- The token is cancelled; only the first time counts. -/
def cancel (s : Course α) : Course α :=
  { s with cancelledAfter := some (s.cancelledAfter.getD s.calls.length) }

/-- What a move leads to, if it can happen. -/
def after (p : RetryPolicy) (answers : Nat → Except BusError α) (s : Course α) :
    Move → Option (Course α)
  | .cancel => some s.cancel
  | .proceed =>
    match s.point with
    | .trying n =>
      some (if s.cancelledAfter.isSome then s.conclude (.error cancelled) else s.begin n)
    | _ => none
  | .answer =>
    match s.point with
    | .calling n => some (s.react p n (answers n))
    | _ => none
  | .wake =>
    match s.point with
    | .pausing n due => if due ≤ s.now then some { s with point := .trying (n + 1) } else none
    | _ => none
  | .breakOff =>
    match s.point with
    | .pausing .. => if s.cancelledAfter.isSome then some (s.conclude (.error cancelled)) else none
    | _ => none
  | .wait ms => some { s with now := s.now + ms }

/-- What some moves lead to, one after the other. -/
def run (p : RetryPolicy) (answers : Nat → Except BusError α) (s : Course α) (moves : List Move) :
    Option (Course α) :=
  moves.foldlM (after p answers) s

/-- One course leads to another. -/
inductive Leads (p : RetryPolicy) (answers : Nat → Except BusError α) :
    Course α → Course α → Prop where
  | refl (s : Course α) : Leads p answers s s
  | step {s t u : Course α} {m : Move} :
    Leads p answers s t → t.after p answers m = some u → Leads p answers s u

/-- A course that can come about. -/
def Reachable (p : RetryPolicy) (answers : Nat → Except BusError α) (s : Course α) : Prop :=
  Leads p answers {} s

end Course

end PeekLock.Retry
