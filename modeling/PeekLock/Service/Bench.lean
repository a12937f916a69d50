import PeekLock.Consumer.Shift
import PeekLock.Service.Handler

/-!
# PeekLock.Service.Bench

The workers of the service, any number of them, at shared counters.

Every worker runs the handler of the service for the messages that it is
given.  A call of the handler counts its message, and returns later; only
then the worker calls for the settlement.  All of them take turns, in any
order, and what the receiver answers, and with which messages, is left
open.

Two books are kept on the side, which nobody reads: what the handler has
returned, and which settlements were called for.
-/

namespace PeekLock.Service

/-- How far a call of the handler has come. -/
inductive Handling where
  /-- It has not counted its message. -/
  | called
  /-- It has, and is about to return so. -/
  | counted (result : Except String Unit)
  /-- It has returned so, and the worker is about to call for the settlement. -/
  | returned (result : Except String Unit)

/-- A worker at the bench. -/
structure Hand where
  worker : Worker
  stage : Worker.Stage := .starting
  /-- How far its call of the handler has come, where it has made one. -/
  handling : Handling := .called

namespace Hand

/-- What the handler is called with. -/
def context? (x : Hand) : Option MessageContext :=
  match x.worker.call? x.stage with
  | some (.handle c) => some c
  | _ => none

/-- The settlement that a worker calls for when it comes to its stage. -/
def settlement? (x : Hand) : Option (LockToken × Verdict) :=
  match x.worker.call? x.stage with
  | some (.settle token verdict) => some (token, verdict)
  | _ => none

/-- A worker meets with what it waits for. -/
def meet (x : Hand) (e : Worker.Event) : Hand :=
  { x with stage := (x.worker.react x.stage e).1, handling := .called }

end Hand

/-- The workers of the service, and their counters. -/
structure Bench where
  /-- The workers, in the order in which they were started. -/
  hands : List Hand := []
  stats : Stats := {}
  /-- What the handler has returned, the oldest first. -/
  returns : List (Except String Unit) := []
  /-- The settlements that were called for, the oldest first. -/
  settlements : List (LockToken × Verdict) := []

namespace Bench

/-- What can happen next. -/
inductive Move where
  /-- A worker is started. -/
  | hire (w : Worker)
  /-- A worker meets with what it waits for, but for its handler. -/
  | meet (hand : Nat) (e : Worker.Event)
  /-- A worker that waits for anything but its handler is lost. -/
  | lose (hand : Nat) (how : Exit)
  /-- The handler counts the message of a worker. -/
  | count (hand : Nat)
  /-- The handler returns to a worker. -/
  | return (hand : Nat)
  /-- A worker calls for the settlement of the message that was handled. -/
  | settle (hand : Nat)
  /-- Messages are sent, and counted. -/
  | send (count : UInt64)

/-- A worker goes on, and calls for the settlement that its stage asks for. -/
def put (b : Bench) (k : Nat) (x : Hand) : Bench :=
  { b with
    hands := b.hands.set k x
    settlements := b.settlements ++ x.settlement?.toList }

/-- The handler counts a message. -/
def count (b : Bench) (k : Nat) (x : Hand) (c : MessageContext) : Bench :=
  let (result, _, stats) := logMessage c b.stats
  { b with hands := b.hands.set k { x with handling := .counted result }, stats := stats }

/-- What a move leads to, if it can happen. -/
def after (b : Bench) : Move → Option Bench
  | .hire w => some { b with hands := b.hands ++ [{ worker := w }] }
  | .meet k e => do
    let x ← b.hands[k]?
    if x.stage.awaits e && x.context?.isNone then some (b.put k (x.meet e)) else none
  | .lose k how => do
    let x ← b.hands[k]?
    if x.context?.isNone then some { b with hands := b.hands.set k { x with stage := .ended how } }
    else none
  | .count k => do
    let x ← b.hands[k]?
    match x.context?, x.handling with
    | some c, .called => some (b.count k x c)
    | _, _ => none
  | .return k => do
    let x ← b.hands[k]?
    match x.context?, x.handling with
    | some _, .counted result => some { b with
        hands := b.hands.set k { x with handling := .returned result }
        returns := b.returns ++ [result] }
    | _, _ => none
  | .settle k => do
    let x ← b.hands[k]?
    match x.context?, x.handling with
    | some _, .returned result => some (b.put k (x.meet (.handled result)))
    | _, _ => none
  | .send count => some { b with stats := b.stats.recordSent count }

/-- What some moves lead to, one after the other. -/
def run (b : Bench) (moves : List Move) : Option Bench := moves.foldlM after b

/-- No worker is in its handler, or has come back from it and not called for the settlement. -/
def IsQuiet (b : Bench) : Prop := ∀ x ∈ b.hands, x.context? = none

instance (b : Bench) : Decidable b.IsQuiet :=
  inferInstanceAs (Decidable (∀ x ∈ b.hands, x.context? = none))

/-- How many messages the workers have asked to complete. -/
def completes (b : Bench) : Nat := b.settlements.countP (·.2 = .complete)

/-- How many messages the workers have asked to abandon. -/
def abandons (b : Bench) : Nat := b.settlements.countP (·.2 = .abandon)

end Bench

end PeekLock.Service
