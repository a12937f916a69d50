import PeekLock.Broker.Basic

/-!
# PeekLock.Broker.Gauge

The counters of receives, one atomic operation at a time.

A receive that begins is counted, raises the number of receives that go
on, and notes for the peak what it has raised it to.  These are three
operations on three counters, and other receives may do theirs in between.
When the receive is over, however that comes about, the number is lowered.
`Broker.enterReceive` is the three in one, and `Broker.leaveReceive` the
last.

A turnstile is the counters with every receive that ever came to them.
-/

namespace PeekLock.Broker

/-- The counters of receives. -/
structure Gauge where
  calls : Nat := 0
  active : Nat := 0
  peak : Nat := 0
  deriving DecidableEq, Repr

namespace Gauge

/-- One more receive has begun. -/
def count (g : Gauge) : Gauge := { g with calls := g.calls + 1 }

/-- One more receive goes on. -/
def raise (g : Gauge) : Gauge := { g with active := g.active + 1 }

/-- So many receives have gone on at one time. -/
def note (g : Gauge) (reading : Nat) : Gauge := { g with peak := max g.peak reading }

/-- One receive less goes on. -/
def lower (g : Gauge) : Gauge := { g with active := g.active - 1 }

/-- A receive enters, and no other comes in between. -/
def enter (g : Gauge) : Gauge := (g.count.raise).note g.raise.active

/-- Where a receive is on its way past the counters. -/
inductive Point where
  /-- About to be counted. -/
  | arriving
  /-- About to raise the number. -/
  | counted
  /-- About to note what it has raised the number to. -/
  | raised (reading : Nat)
  /-- Going on; its end lowers the number. -/
  | inside
  | left
  deriving DecidableEq, Repr

/-- The next operation of a receive. -/
def step (g : Gauge) : Point → Option (Gauge × Point)
  | .arriving => some (g.count, .counted)
  | .counted => some (g.raise, .raised g.raise.active)
  | .raised reading => some (g.note reading, .inside)
  | .inside => some (g.lower, .left)
  | .left => none

/-- Whether a receive has raised the number, and not lowered it yet. -/
def Point.isIn : Point → Bool
  | .raised _ => true
  | .inside => true
  | _ => false

end Gauge

/-- The counters of a bus. -/
def gauge (b : Broker) : Gauge := ⟨b.receiveCalls, b.activeReceives, b.peakReceives⟩

/-- The counters with every receive that ever came to them. -/
structure Turnstile where
  gauge : Gauge := {}
  /-- The receives, by number. -/
  receives : List Gauge.Point := []
  deriving DecidableEq, Repr

namespace Turnstile

/-- What can happen next. -/
inductive Move where
  /-- A receive comes to the counters. -/
  | arrive
  /-- The receive of that number carries out its next operation. -/
  | advance (receive : Nat)

/-- What a move leads to, if it can happen. -/
def after (s : Turnstile) : Move → Option Turnstile
  | .arrive => some { s with receives := s.receives ++ [.arriving] }
  | .advance i => do
    let (gauge, point) ← s.gauge.step (← s.receives[i]?)
    some ⟨gauge, s.receives.set i point⟩

/-- What some moves lead to, one after the other. -/
def run (s : Turnstile) (moves : List Move) : Option Turnstile := moves.foldlM after s

/-- How many receives have raised the number, and not lowered it yet. -/
def inside (s : Turnstile) : Nat := s.receives.countP Gauge.Point.isIn

end Turnstile

end PeekLock.Broker
