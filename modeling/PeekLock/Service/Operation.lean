import PeekLock.Consumer.Workshop
import PeekLock.Service.Run

/-!
# PeekLock.Service.Operation

The service at work, in any order of steps.

An operation is the consumer of the service at work on the in-memory bus,
with the counters that its handler keeps.  Whenever a worker has a message
before it the handler can be run, and the workshop can make any other move
of its own; which one comes next is left open.  Nobody but the service
uses the bus.
-/

namespace PeekLock.Service

/-- The service at work. -/
structure Operation where
  shop : Workshop
  stats : Stats

namespace Operation

/-- What can happen next. -/
inductive Move where
  | shop (m : Workshop.Move)
  /-- The handler is run for the message before a worker. -/
  | handle (post : Nat)

/-- What the handler of a worker is called with. -/
def context? (o : Operation) (k : Nat) : Option MessageContext :=
  o.shop.posts[k]?.bind fun p =>
    match p.worker.call? p.stage with
    | some (.handle c) => some c
    | _ => none

/-- What a move leads to, if it can happen. -/
def after (o : Operation) : Move → Option Operation
  | .shop m =>
    if m.isInternal then (o.shop.after m).map fun shop => { o with shop := shop } else none
  | .handle k =>
    (o.context? k).bind fun c =>
      let (result, _, stats) := logMessage c o.stats
      (o.shop.after (.handle k result)).map fun shop => ⟨shop, stats⟩

/-- What some moves lead to, one after the other. -/
def run (o : Operation) (moves : List Move) : Option Operation := moves.foldlM after o

/-- One operation leads to another. -/
inductive Leads : Operation → Operation → Prop where
  | refl (o : Operation) : Leads o o
  | step {o p q : Operation} {m : Move} : Leads o p → p.after m = some q → Leads o q

/-- The service is about to consume, on the bus that a run has got ready. -/
structure Begins (s : Settings) (st : State) (o : Operation) : Prop where
  opens : o.shop.Opens s.bus.consumer
  /-- The bus is as the run has left it, and no call is on its way there. -/
  broker : o.shop.traffic.broker = st.shared.bus.broker
  idle : ∀ x ∈ o.shop.traffic.calls, ∃ out, x.progress = .done out
  /-- The consumer is the one that the run has created, and so is its receiver. -/
  consumer : ∃ n, st.shared.consumers.get? consumerName = some n ∧
    o.shop.life.consumer = (st.shared.member n).consumer ∧
    (st.shared.bus.receiver o.shop.life.consumer.receiver).source = .memory o.shop.receiver
  stats : o.stats = st.shared.stats

end Operation

end PeekLock.Service
