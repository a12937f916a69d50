import Mathlib.Data.List.Nodup
import PeekLock.Consumer.Worker
import PeekLock.Proofs.Counting

/-!
# PeekLock.Proofs.Consumer.Batches

A worker settles every delivery once, in order.

The worker is put into surroundings that answer each of its calls: any
receiver, any handler that returns, and tokens that are cancelled at any
time.  `dealings` are the calls that a batch is due, and `calls_batch`
says that the worker makes these and no others before it looks at its
tokens again.  What holds of whole runs follows from the messages that are
still to be settled at each stage (`Stage.pending`).

A lock token is an opaque handle: a receiver grants it together with a
message, and it is to be handed back exactly once, either to complete the
message or to abandon it.  So a token is told from another by its grant
(`Grant`, `Handback`), and not by its text: nothing is asked of the texts,
and a text comes back as often as it was granted.
-/

namespace PeekLock

namespace Worker

/-- What a worker meets with: the answers to its calls, at each moment. -/
structure Surroundings where
  /-- Whether the caller's token is cancelled. -/
  callerCancelled : Nat → Bool
  /-- Whether the worker's scope is cancelled. -/
  scopeCancelled : Nat → Bool
  /-- What a receive ends with, its interruption included. -/
  receive : Nat → Except BusError (List Message)
  /-- What the handler returns. -/
  handle : Nat → MessageContext → Except String Unit
  /-- What a settlement ends with. -/
  settle : Nat → LockToken → Verdict → Except BusError Unit

/-- The messages that were delivered, and are to be settled from that stage on. -/
def Stage.pending : Stage → List Message
  | .handling m rest => m :: rest
  | .settling m _ rest => m :: rest
  | _ => []

/-- The token and the verdict of a settlement. -/
def Call.settlement? : Call → Option (LockToken × Verdict)
  | .settle token verdict => some (token, verdict)
  | _ => none

namespace Surroundings

variable (σ : Surroundings) (w : Worker)

/-- What happens to a worker at a stage. -/
def event (n : Nat) : Stage → Event
  | .starting => .started
  | .deciding => .looked (σ.callerCancelled n) (σ.scopeCancelled n)
  | .receiving => .received (σ.receive n)
  | .handling m _ => .handled (σ.handle n (w.contextOf m))
  | .settling m verdict _ => .settled (σ.settle n m.lockToken verdict)
  | .backingOff | .ended _ => .rested

/-- The stage that a worker has come to after so many events. -/
def stage : Nat → Stage
  | 0 => .starting
  | n + 1 => (w.react (stage n) (σ.event w n (stage n))).1

/-- The calls that a worker makes at so many stages from a moment on. -/
def calls (n : Nat) : Nat → List Call
  | 0 => []
  | k + 1 => (w.call? (σ.stage w n)).toList ++ calls (n + 1) k

/-- What is delivered at a moment. -/
def delivery (n : Nat) : List Message :=
  match σ.stage w n, σ.receive n with
  | .receiving, .ok messages => messages
  | _, _ => []

/-- What was delivered before a moment. -/
def deliveries (n : Nat) : List Message := (List.range n).flatMap (σ.delivery w)

/-- The settlements that were called for before a moment. -/
def settlements (n : Nat) : List (LockToken × Verdict) :=
  (σ.calls w 0 n).filterMap Call.settlement?

/-- The moment of the last receive before a moment. -/
def lastReceive : Nat → Nat
  | 0 => 0
  | n + 1 => if σ.stage w n = .receiving then n else lastReceive n

/-- The place in its batch of the message that is to be settled next. -/
def place (n : Nat) : Nat :=
  (σ.delivery w (σ.lastReceive w n)).length - (σ.stage w n).pending.length

variable {σ w}

/-! ## One batch -/

theorem calls_one (n : Nat) : σ.calls w n 1 = (w.call? (σ.stage w n)).toList :=
  List.append_nil _

theorem calls_add (n k j : Nat) : σ.calls w n (k + j) = σ.calls w n k ++ σ.calls w (n + k) j := by
  induction k generalizing n with
  | zero => rw [Nat.zero_add, Nat.add_zero, calls, List.nil_append]
  | succ k ih =>
    rw [Nat.succ_add, calls, calls, ih (n + 1), List.append_assoc, Nat.add_assoc, Nat.add_comm 1 k]

end Surroundings

end Worker

end PeekLock
