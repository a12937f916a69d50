import PeekLock.Proofs.Consumer.Seclusion
import PeekLock.Proofs.Service.Handling
import PeekLock.Proofs.Service.Preparation
import PeekLock.Service.Operation

/-!
# PeekLock.Proofs.Service.EndToEnd

What the service produces is what it consumes.

An operation is a workshop that is left alone, whose handler takes what is
acceptable.  If everything that has arrived is acceptable, the handler
takes everything (`Smooth`), so what holds of a consumer that takes
everything holds of the service.  The samples are acceptable, and they are
all that has arrived when the service begins.
-/

namespace PeekLock.Service

open Identifier (counting)

variable {supply : Identifier.Supply} {s : Settings} {time : Nat → String} {count : Nat}

namespace Operation

/-! ## Steps -/

/-- The handler is called with a message that is before a worker. -/
theorem stage_of_context? {o : Operation} {k : Nat} {c : MessageContext}
    (h : o.context? k = some c) : ∃ p rest, o.shop.posts[k]? = some p ∧
      p.stage = .handling c.message rest := by
  obtain ⟨p, hp, hc⟩ := Option.bind_eq_some_iff.mp h
  split at hc
  · next c' hcall =>
    cases hc
    unfold Worker.call? at hcall
    split at hcall
    case h_2 m rest hs =>
      cases hcall
      exact ⟨p, rest, hp, hs⟩
    all_goals cases hcall
  · contradiction

/-- What some moves lead to is reached. -/
theorem leads_of_run {o o' : Operation} {moves : List Move} (h : o.run moves = some o') :
    o.Leads o' :=
  keeps_of_foldlM h (.refl o) fun _ _ _ hl hm => hl.step hm

/-! ## Everything is taken -/

/-- The service has taken everything so far, and counted it. -/
structure Smooth (s : Settings) (first o : Operation) : Prop where
  reachable : o.shop.Reachable s.bus.consumer
  inner : o.shop.traffic.IsInner
  firstHand : o.shop.FirstHand
  receiver : o.shop.receiver = first.shop.receiver
  /-- Nothing arrives any more. -/
  arrivals : o.shop.traffic.arrivals = first.shop.traffic.arrivals
  stats : o.stats =
    { first.stats with processed := first.stats.processed + .ofNat o.shop.returns.length }

section

variable {first o o' : Operation}

/-- A move of the workshop on which the handler has taken everything so far. -/
theorem Smooth.shop (h : Smooth s first o) {m : Workshop.Move} {shop : Workshop}
    (hm : o.shop.after m = some shop) (hinner : shop.traffic.IsInner)
    (hok : ∀ x ∈ shop.returns, x.2 = .ok ()) {stats : Stats}
    (hstats : stats =
      { first.stats with processed := first.stats.processed + .ofNat shop.returns.length }) :
    Smooth s first ⟨shop, stats⟩ := by
  have hp := h.reachable.parts
  have ht := Workshop.turn_of_after hp.tended hm
  exact
    { reachable := h.reachable.leads (.step (.refl _) hm)
      inner := hinner
      firstHand := ht.firstHand hp h.reachable.dealt h.firstHand hinner hok
      receiver := ht.receiver.trans h.receiver
      arrivals := (ht.arrivals hp h.firstHand).trans h.arrivals
      stats := hstats }

/-- What the handler is called with is acceptable, as everything that has arrived. -/
theorem Smooth.acceptable (h : Smooth s first o)
    (ha : ∀ a ∈ first.shop.traffic.arrivals, Acceptable a.copy.message) {k : Nat}
    {c : MessageContext} (hc : o.context? k = some c) : Acceptable c.message := by
  obtain ⟨p, rest, hp, hs⟩ := stage_of_context? hc
  have hm : c.message ∈ o.shop.unhandled :=
    List.mem_flatMap.mpr ⟨p, List.mem_of_getElem? hp, by rw [Post.unhandled, hs]; simp⟩
  obtain ⟨a, hmem, hcontent⟩ := h.reachable.traced_of_unhandled hm
  exact (acceptable_iff hcontent).mpr (ha a (h.arrivals ▸ hmem))

theorem Smooth.after (h : Smooth s first o)
    (ha : ∀ a ∈ first.shop.traffic.arrivals, Acceptable a.copy.message) {m : Move}
    (hm : o.after m = some o') : Smooth s first o' := by
  cases m with
  | shop m =>
    simp only [Operation.after] at hm
    split at hm
    · next hi =>
      obtain ⟨shop, hshop, rfl⟩ := Option.map_eq_some_iff.mp hm
      have hsecluded := Workshop.secluded_after hshop hi
      exact h.shop hshop (hsecluded.inner h.inner) (hsecluded.returns ▸ h.firstHand.taken)
        (hsecluded.returns ▸ h.stats)
    · contradiction
  | handle k =>
    obtain ⟨c, hc, hm⟩ := Option.bind_eq_some_iff.mp hm
    obtain ⟨logs, hlog⟩ := logMessage_of_acceptable (h.acceptable ha hc) o.stats
    simp only [hlog] at hm
    obtain ⟨shop, hshop, rfl⟩ := Option.map_eq_some_iff.mp hm
    obtain ⟨m, hsecluded⟩ := Workshop.secluded_handle hshop
    have hreturns : shop.returns = o.shop.returns ++ [(m, .ok ())] := hsecluded.returns
    refine h.shop hshop (hsecluded.inner h.inner) (fun x hx => ?_) ?_
    · rw [hreturns, List.mem_append, List.mem_singleton] at hx
      obtain hx | rfl := hx
      · exact h.firstHand.taken x hx
      · rfl
    · rw [hreturns, List.length_append, List.length_singleton, h.stats, Stats.recordProcessed]
      simp [UInt64.ofNat_add, UInt64.add_assoc]

theorem Smooth.leads (h : Smooth s first o)
    (ha : ∀ a ∈ first.shop.traffic.arrivals, Acceptable a.copy.message) (hl : o.Leads o') :
    Smooth s first o' := by
  induction hl with
  | refl => exact h
  | step _ hm ih => exact ih.after ha hm

end

/-! ## The beginning -/

/-- The bus has been got ready: the samples wait, and the consumer and its receiver are there. -/
structure Ready (supply : Identifier.Supply) (s : Settings) (time : Nat → String) (count : Nat)
    (st : State) : Prop where
  supplied : Supplied supply s time count st.shared.bus.broker
  prepared : ∃ number, Prepared s st.shared.bus.broker ⟨number, s.bus.consumer.entity⟩
    ⟨.ofNat count, 0, 0⟩ st.shared

section

variable {st : State} {o o' : Operation}

/-- At first everything there is waits in the entity that is consumed. -/
theorem Begins.stocked (h : Begins s st o) (hr : Ready supply s time count st) :
    o.shop.traffic.Stocked s.bus.consumer.entity where
  elsewhere e he := h.broker ▸ hr.supplied.elsewhere e he
  locks := h.opens.locks
  hands := h.opens.hands_eq_nil
  completed := h.opens.completed

/-- The receiver is one for the entity that is consumed. -/
theorem Begins.entity (h : Begins s st o) (hr : Ready supply s time count st) :
    o.shop.receiver.entity = s.bus.consumer.entity := by
  obtain ⟨n, hn, hconsumer, hsource⟩ := h.consumer
  obtain ⟨number, hprepared⟩ := hr.prepared
  have hn : n = 0 := Option.some.inj (hn.symm.trans hprepared.consumer)
  rw [hconsumer, hn, hprepared.member, hprepared.receiver] at hsource
  injection hsource with hsame
  rw [← hsame]

/-- What has arrived is acceptable. -/
theorem Begins.acceptable (h : Begins s st o) (hr : Ready supply s time count st)
    (hcount : count ≤ Decimal.maxU64) :
    ∀ a ∈ o.shop.traffic.arrivals, Acceptable a.copy.message := by
  intro a ha
  obtain ⟨-, c, hc, hca⟩ := (h.stocked hr).exists_waiting h.opens.traffic.ledger ha
  obtain ⟨k, hk, hmessage⟩ := hr.supplied.exists_sample (h.broker ▸ hc)
  rw [← acceptable_iff hca.content, hmessage]
  exact acceptable_sampleMessage supply s time (Nat.le_trans hk hcount)

/-- What has arrived has the ids of the samples. -/
theorem Begins.perm_ids (h : Begins s st o) (hr : Ready supply s time count st) :
    (o.shop.traffic.arrivals.map (·.copy.message.id)).Perm (sampleIds supply count) := by
  have hids := (h.stocked hr).perm_ids h.opens.traffic.ledger
  rw [h.broker, hr.supplied.ids] at hids
  exact hids.symm

/-- At first nothing has been taken. -/
theorem Begins.smooth (h : Begins s st o) (hr : Ready supply s time count st) : Smooth s o o where
  reachable := ⟨o.shop, h.opens, .refl _⟩
  inner i began c hi := by
    obtain ⟨out, hout⟩ := h.idle _ (List.mem_of_getElem? hi)
    contradiction
  firstHand :=
    { taken := by rw [h.opens.returns]; exact fun _ hx => absurd hx List.not_mem_nil
      traffic :=
        { plain := fun i began c hi => by
            obtain ⟨out, hout⟩ := h.idle _ (List.mem_of_getElem? hi)
            contradiction
          waiting := fun e c hc => by
            obtain ⟨k, -, hmessage⟩ := hr.supplied.exists_sample (h.broker ▸ hc)
            rw [hmessage]
            exact .inl rfl
          locked := by rw [h.opens.locks]; exact fun _ hl => absurd hl List.not_mem_nil
          hands := by rw [h.opens.hands_eq_nil]; exact fun _ hl => absurd hl List.not_mem_nil
          completed := by rw [h.opens.completed]; exact fun _ hc => absurd hc List.not_mem_nil
          abandoned := h.opens.abandoned }
      delivered := by rw [h.opens.deliveries]; exact fun _ hx => absurd hx List.not_mem_nil }
  receiver := rfl
  arrivals := rfl
  stats := by
    rw [h.opens.returns]
    exact congrArg (fun n => { o.stats with processed := n }) (UInt64.add_zero _).symm

end

/-- What the service has taken and counted, in any state. -/
structure Counts (count : UInt32) (o : Operation) : Prop where
  accepted : ∀ x ∈ o.shop.returns, x.2 = .ok ()
  stats : o.stats = ⟨count.toUInt64, .ofNat o.shop.returns.length, 0⟩

/-- The service has consumed all samples. -/
structure HasConsumed (supply : Identifier.Supply) (count : UInt32) (o : Operation) : Prop where
  completed : o.shop.traffic.broker.completedIds.Perm (sampleIds supply count.toNat)
  abandoned : o.shop.traffic.broker.abandonedIds = []
  /-- Each was taken once, on its first delivery. -/
  accepted : (o.shop.returns.map fun x => (x.1.id, x.1.deliveryCount, x.2)).Perm
    ((sampleIds supply count.toNat).map fun id => (id, 1, .ok ()))
  stats : o.stats = ⟨count.toUInt64, count.toUInt64, 0⟩

section

variable {first o : Operation} {st : State} {count : UInt32}

theorem Begins.counts (h : Begins s st first) (hr : Ready supply s time count.toNat st)
    (ho : Smooth s first o) : o.Counts count where
  accepted := ho.firstHand.taken
  stats := by
    obtain ⟨number, hprepared⟩ := hr.prepared
    rw [ho.stats, h.stats, hprepared.stats]
    simp

theorem Begins.hasConsumed (h : Begins s st first) (hr : Ready supply s time count.toNat st)
    (ho : Smooth s first o) (hx : o.shop.traffic.Exhausted s.bus.consumer.entity) :
    o.HasConsumed supply count := by
  have hp := ho.reachable.parts
  have hentity : o.shop.receiver.entity = s.bus.consumer.entity :=
    (congrArg _ ho.receiver).trans (h.entity hr)
  have hcompleted : o.shop.traffic.broker.completedIds.Perm (sampleIds supply count.toNat) := by
    refine (hx.perm_completedIds hp.traffic fun a ha => ?_).trans ?_
    · exact ((h.stocked hr).exists_waiting h.opens.traffic.ledger (ho.arrivals ▸ ha)).1
    · rw [ho.arrivals]
      exact h.perm_ids hr
  have hreturns := ho.firstHand.perm_returns hp ho.reachable.dealt (hentity ▸ hx)
  have haccepted : (o.shop.returns.map fun x => (x.1.id, x.1.deliveryCount, x.2)).Perm
      ((sampleIds supply count.toNat).map fun id => (id, 1, .ok ())) := by
    have hhandled : o.shop.returns.map (fun x => (x.1.id, x.1.deliveryCount, x.2)) =
        (o.shop.returns.map (·.1)).map fun m => (m.id, m.deliveryCount, .ok ()) := by
      rw [List.map_map]
      exact List.map_congr_left fun x hm => by rw [Function.comp_apply, ho.firstHand.taken x hm]
    have hids : (o.shop.traffic.broker.completed.map (·.message)).map
        (fun m => (m.id, m.deliveryCount, (.ok () : Except String Unit))) =
          o.shop.traffic.broker.completedIds.map fun id => (id, 1, .ok ()) := by
      rw [Broker.completedIds, List.map_map, List.map_map]
      refine List.map_congr_left fun c hc => ?_
      simp only [Function.comp_apply, (ho.firstHand.traffic.completed c hc).1]
    rw [hhandled]
    exact (hreturns.map _).trans (hids ▸ hcompleted.map _)
  have hlength : o.shop.returns.length = count.toNat := by
    have := haccepted.length_eq
    simpa [sampleIds] using this
  refine ⟨hcompleted, congrArg _ ho.firstHand.traffic.abandoned, haccepted, ?_⟩
  rw [(h.counts hr ho).stats, hlength]
  simp

end

end Operation

/-! ## The whole run -/

/-- A run that gets ready leaves everything as it has to be. -/
theorem ready_of_prepared {b : Broker} {number : Nat} {w : Session.World}
    (hb : Supplying supply s time count b)
    (hw : Prepared s (b.opened s.bus.consumer.entity) ⟨number, s.bus.consumer.entity⟩
      ⟨.ofNat count, 0, 0⟩ w) : Operation.Ready supply s time count ⟨0, w, [], []⟩ where
  supplied := hw.broker ▸ hb.supplied.opened _
  prepared := ⟨number, hw.broker.symm ▸ hw⟩

/-- The service can begin on a traffic that leaves the bus as the run does. -/
theorem begins_of_traffic {b : Broker} {r : Broker.Receiver} {stats : Stats} {st : State}
    (hw : Prepared s b r stats st.shared) (hb : b.Unused) {t : Broker.Traffic}
    (ht : t.Reachable) (hbroker : t.broker = b) (hr : r ∈ t.receivers)
    (hdone : ∀ x ∈ t.calls, ∃ out, x.progress = .done out) :
    Operation.Begins s st ⟨{
      receiver := r
      traffic := t
      life := (Consumer.Life.new s.bus.consumer 0).pass t.now }, stats⟩ where
  opens :=
    { traffic := ht
      receiver := hr
      isOpen := by
        show t.broker.isOpen r = true
        rw [hbroker, Broker.isOpen, hb.closed]
        rfl
      faults := by
        show t.broker.faults.spareSettlements = true
        rw [hbroker, hb.faults]
        rfl
      locks := hbroker ▸ hb.locks
      completed := hbroker ▸ hb.completed
      abandoned := hbroker ▸ hb.abandoned
      outside := fun i began c hi => by
        obtain ⟨out, hout⟩ := hdone _ (List.mem_of_getElem? hi)
        contradiction
      life := ⟨0, rfl⟩
      posts := rfl
      closing := rfl
      deliveries := rfl
      returns := rfl
      settlements := rfl }
  broker := hbroker.trans hw.broker.symm
  idle := hdone
  consumer := ⟨0, hw.consumer, by rw [hw.member]; rfl, hw.receiver⟩
  stats := hw.stats.symm

/-- **What is produced is what is consumed**: for all valid settings whose producer and receiver
can be created, the run gets ready; the samples then wait in the entity that is consumed, in
their order, and nowhere else; in whatever order the workers take their turns, the handler
accepts what it is called with; and whenever nothing waits there any more and nothing is in
flight or being settled, every sample has been completed and counted. -/
theorem consumes_what_it_produces {p : Producer} {path : EntityPath} (hs : s.violations = [])
    (hp : Producer.new s.bus.sendTarget = .ok p)
    (hpath : EntityPath.parse s.bus.consumer.entity = .ok path) (supply : Identifier.Supply)
    (time : Nat → String) (count : UInt32) : ∃ produced ready : State,
      (do connect s true; produce s time count.toNat : Act Unit).run.run (atStart true supply) =
        (.ok (), produced) ∧
      Supplied supply s time count.toNat produced.shared.bus.broker ∧
      (createConsumer s).run.run produced = (.ok (), ready) ∧
      (∃ first, Operation.Begins s ready first) ∧
      ∀ first o, Operation.Begins s ready first → first.Leads o → o.Counts count ∧
        (o.shop.traffic.Exhausted s.bus.consumer.entity → o.HasConsumed supply count) := by
  have hb := supplying_sentSamples supply hs time count.toNat
  have hrejected : (sentSamples s time (connected supply s)
      (List.range' 1 count.toNat)).faults.rejected = [] := by
    rw [hb.unused.faults]
  obtain ⟨w, hsupplied, hstage⟩ := ends_supply hp supply time count.toNat
  obtain ⟨w', hcreated, hprepared⟩ := ends_createConsumer hpath hrejected hstage
  have hready := ready_of_prepared hb hprepared
  have hattained := (attained_sentSamples (checkTarget_of_new hp).2 (attained_connected supply s)
    (List.range' 1 count.toNat)).ask (q := .createReceiver s.bus.consumer.entity) rfl
    (Broker.takes_createReceiver hpath hrejected 0)
  refine ⟨_, ⟨0, w', [], []⟩, hsupplied, hstage.broker ▸ hb.supplied, hcreated, ?_, ?_⟩
  · obtain ⟨t, hreach, -, hbroker, hreceivers, hdone⟩ := hattained
    exact ⟨_, begins_of_traffic hprepared (hb.unused.opened _) hreach hbroker
      (hreceivers ▸ List.mem_singleton_self _) hdone⟩
  · intro first o hbegins hleads
    have hcount : count.toNat ≤ Decimal.maxU64 :=
      Nat.le_trans (Nat.le_of_lt count.toNat_lt) (by decide)
    have hsmooth := (hbegins.smooth hready).leads (hbegins.acceptable hready hcount) hleads
    exact ⟨hbegins.counts hready hsmooth, hbegins.hasConsumed hready hsmooth⟩

/-- A topic and a subscription, whose names are trimmed. -/
def atTheSubscription : Settings where
  bus := { topic? := some " orders ", subscription? := some "billing", concurrency? := some 1 }

/-- Two samples are sent at noon, and a receiver is created. -/
def twoSent : List Broker.Move :=
  let sample (k : Nat) : Broker.Request := .send "orders" (sampleBody (fun _ => "noon") k)
    (Producer.jsonOptions (sampleOptions atTheSubscription))
  [.begin (.createSubscription "orders" "billing"), .advance 0,
    .begin (sample 1), .advance 1, .advance 1, .advance 1,
    .begin (sample 2), .advance 2, .advance 2, .advance 2,
    .begin (.createReceiver "orders/subscriptions/billing"), .advance 3, .advance 3]

/-- A worker is started; it receives both samples, and the handler is run for each of them. -/
def twoTaken : List Operation.Move := [
  .shop (.request (.start "main")), .shop (.proceed 0), .shop (.proceed 0), .shop (.proceed 0),
  .shop (.work 0), .shop (.work 0), .shop (.work 0), .shop (.work 0), .shop (.work 0),
  .shop (.work 0), .handle 0, .shop (.work 0), .shop (.work 0), .shop (.work 0),
  .handle 0, .shop (.work 0), .shop (.work 0), .shop (.work 0)]

theorem exists_done_of_all {calls : List Broker.Entry}
    (h : (calls.all fun x => x.progress matches .done _) = true) :
    ∀ x ∈ calls, ∃ out, x.progress = .done out := by
  intro x hx
  obtain ⟨began, progress⟩ := x
  cases progress with
  | on c => cases List.all_eq_true.mp h _ hx
  | done out => exact ⟨out, rfl⟩

/-- What a bus holds and how it has been set. -/
def contents (b : Broker) :=
  (b.queues, b.subscriptions, b.locks, b.completed, b.abandoned, b.faults)

/-- The numbers that a bus keeps. -/
def numbers (b : Broker) : List Nat × List Nat :=
  (b.closed, [b.closedReceivers, b.nextReceiver, b.receiveCalls, b.activeReceives, b.peakReceives,
    b.broadcasts, b.copies, b.issued])

/-- Two buses with one supply of identifiers are the same if all else is. -/
theorem eq_of_contents {a b : Broker} (hs : a.supply = b.supply) (hc : contents a = contents b)
    (hn : numbers a = numbers b) : a = b := by
  cases a
  cases b
  cases hs
  cases hc
  cases hn
  rfl

theorem consumes_twoSent : ∃ (ready : State) (first o : Operation),
    Operation.Begins atTheSubscription ready first ∧ first.run twoTaken = some o ∧
    o.shop.traffic.Exhausted "orders/subscriptions/billing" ∧
    o.shop.returns.length = 2 ∧ o.Counts 2 ∧ o.HasConsumed counting 2 := by
  have hs : atTheSubscription.violations = [] := by decide
  have hp : Producer.new atTheSubscription.bus.sendTarget = .ok ⟨"orders"⟩ := by rfl
  have hpath : EntityPath.parse atTheSubscription.bus.consumer.entity =
      .ok (.subscription "orders" "billing") := by rfl
  obtain ⟨produced, ready, hproduced, -, hcreated, -, hall⟩ :=
    consumes_what_it_produces hs hp hpath counting (fun _ => "noon") 2
  -- the run leaves one state behind, and what matters of it is known
  have hb := supplying_sentSamples counting hs (fun _ => "noon") 2
  obtain ⟨w, hsupplied, hstage⟩ := ends_supply hp counting (fun _ => "noon") 2
  obtain ⟨w', hprepared, hw⟩ := ends_createConsumer hpath (by rw [hb.unused.faults]) hstage
  obtain rfl : produced = ⟨0, w, [], []⟩ := congrArg Prod.snd (hproduced.symm.trans hsupplied)
  obtain rfl : ready = ⟨0, w', [], []⟩ := congrArg Prod.snd (hcreated.symm.trans hprepared)
  have hentity : atTheSubscription.bus.consumer.entity = "orders/subscriptions/billing" := by
    decide
  let sent : Broker := sentSamples atTheSubscription (fun _ => "noon")
    (connected counting atTheSubscription) (List.range' 1 2)
  have hnumber : sent.nextReceiver = 0 := by decide +kernel
  rw [hentity, hnumber] at hw
  have hrun : (({} : Broker.Traffic).run twoSent).any fun t =>
      contents t.broker = contents (sent.opened "orders/subscriptions/billing") ∧
      numbers t.broker = numbers (sent.opened "orders/subscriptions/billing") ∧
      ⟨0, "orders/subscriptions/billing"⟩ ∈ t.receivers ∧
      (t.calls.all fun x => x.progress matches .done _) ∧
      ((Operation.mk {
          receiver := ⟨0, "orders/subscriptions/billing"⟩
          traffic := t
          life := (Consumer.Life.new atTheSubscription.bus.consumer 0).pass t.now }
        ⟨.ofNat 2, 0, 0⟩).run twoTaken).any fun o =>
          o.shop.traffic.broker.queue "orders/subscriptions/billing" = [] ∧
          o.shop.traffic.broker.locks = [] ∧ o.shop.traffic.hands = [] ∧
          o.shop.returns.length = 2 := by
    decide +kernel
  obtain ⟨t, ht, hfacts⟩ := (Option.any_eq_true _ _).mp hrun
  obtain ⟨hcontents, hnumbers, hreceiver, hcalls, hconsumed⟩ := of_decide_eq_true hfacts
  obtain ⟨o, ho, hfinal⟩ := (Option.any_eq_true _ _).mp hconsumed
  obtain ⟨hqueue, hlocks, hhands, hlength⟩ := of_decide_eq_true hfinal
  have hbroker : t.broker = sent.opened "orders/subscriptions/billing" :=
    eq_of_contents ((Broker.Traffic.leads_of_run ht).supply.trans hb.supply.symm) hcontents hnumbers
  have hdone := exists_done_of_all hcalls
  have hbegins : Operation.Begins atTheSubscription ⟨0, w', [], []⟩ _ :=
    begins_of_traffic hw (hb.unused.opened _) (Broker.Traffic.reachable_of_run ht) hbroker hreceiver
      hdone
  have hexhausted : o.shop.traffic.Exhausted "orders/subscriptions/billing" :=
    ⟨hqueue, hlocks, hhands⟩
  obtain ⟨hcounts, hall⟩ := hall _ o hbegins (Operation.leads_of_run ho)
  exact ⟨_, _, o, hbegins, ho, hexhausted, hlength, hcounts, hall (hentity.symm ▸ hexhausted)⟩

end PeekLock.Service
