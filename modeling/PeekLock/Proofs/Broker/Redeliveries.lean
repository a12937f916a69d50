import PeekLock.Proofs.Broker.Contents
import PeekLock.Proofs.Broker.Refusals

/-!
# PeekLock.Proofs.Broker.Redeliveries

A message can be delivered again and again.

While no fault is shown, a copy that waits in the queue of an open receiver
can be received, and once its receiver has abandoned it, it waits there
again (`AtHand.round`).  So it can go through any number of deliveries
(`AtHand.redelivered`).
-/

namespace PeekLock.Broker

namespace Traffic

/-- A copy waits where an open receiver can take it, and the bus shows no fault. -/
structure AtHand (s : Traffic) (r : Receiver) (n : Nat) : Prop where
  receiver : r ∈ s.receivers
  isOpen : s.broker.isOpen r = true
  faults : s.broker.faults = {}
  waiting : ∃ c ∈ s.broker.queue r.entity, c.serial = n

/-- On the way from one traffic to another a copy is delivered with a message like that, and
its receiver abandons it. -/
def Round (r : Receiver) (n : Nat) (P : Message → Prop) (s w : Traffic) : Prop :=
  ∃ t u m d v, s.Leads t ∧ t.after m = some u ∧ d ∈ t.deliveries m ∧ d.copy.serial = n ∧
    P d.copy.message ∧ u.after (.begin (.settle r d.token .abandon)) = some v ∧ v.Leads w ∧
      w.calls[u.calls.length]? = some ⟨u.now, .done (.settled (.ok ()))⟩

/-- So many rounds, one after the other. -/
inductive Redelivered (r : Receiver) (n : Nat) (P : Message → Prop) :
    Nat → Traffic → Traffic → Prop where
  | none (s : Traffic) : Redelivered r n P 0 s s
  | round {k : Nat} {s t u : Traffic} (h : Redelivered r n P k s t) (hr : Round r n P t u) :
    Redelivered r n P (k + 1) s u

variable {s t u : Traffic} {r : Receiver} {n : Nat} {P : Message → Prop}

theorem Round.leads (h : Round r n P s u) : s.Leads u := by
  obtain ⟨t, v, m, d, w, hst, hm, -, -, -, hw, hwu, -⟩ := h
  exact ((hst.step hm).step hw).trans hwu

theorem Redelivered.leads {k : Nat} (h : Redelivered r n P k s t) : s.Leads t := by
  induction h with
  | none s => exact .refl s
  | round h hr ih => exact ih.trans hr.leads

/-! ## Receiving -/

theorem after_begin_of_mem (hr : r ∈ s.receivers) {q : Request} (hq : q.receiver? = some r) :
    s.after (.begin q) = some (s.accept q) := by
  rw [after, hq, Option.all_some, decide_eq_true hr, if_pos rfl]

/-- A receive that goes on at another point does so. -/
theorem leads_of_goTo {i began : Nat} {c : Receive} {b : Broker} {p : Receive.Point}
    (hi : s.calls[i]? = some ⟨began, .on (.receiving c)⟩) (hr : c.isReady s.now s.broker = true)
    (hstep : c.step s.now s.broker = c.goTo b p) :
    ∃ t : Traffic, s.Leads t ∧ t.broker = b ∧
      t.calls[i]? = some ⟨began, .on (.receiving { c with point := p })⟩ := by
  have hafter : s.after (.advance i) = some (s.advance i began (.receiving c)) :=
    after_advance hi hr
  have hcall : (Call.receiving c).step s.now s.broker =
      (c.goTo b p).map .receiving .received := by
    rw [Call.step, hstep]
  refine ⟨_, (Leads.refl s).step hafter, ?_, ?_⟩
  · rw [advance, hcall]
    rfl
  · rw [getElem?_advance hi, hcall]
    rfl

/-- While no fault is shown, an open receiver comes to look at its queue. -/
theorem exists_looking (hr : r ∈ s.receivers) (ho : s.broker.isOpen r = true)
    (hf : s.broker.faults = {}) (most : Nat) (timeout : Duration) :
    ∃ (t : Traffic) (i began deadline seen : Nat), s.Leads t ∧
      t.broker = s.broker.enterReceive ∧
      t.calls[i]? = some ⟨began, .on (.receiving ⟨r, most, timeout, .looking deadline seen⟩)⟩ := by
  have hbegin := after_begin_of_mem (q := .receive r most timeout) hr rfl
  have hi : (s.accept (.receive r most timeout)).calls[s.calls.length]? =
      some ⟨s.now, .on (.receiving ⟨r, most, timeout, .arriving⟩)⟩ :=
    List.getElem?_concat_length
  have harriving (now : Nat) : Receive.step now s.broker ⟨r, most, timeout, .arriving⟩ =
      Receive.goTo ⟨r, most, timeout, .arriving⟩ s.broker.enterReceive .readingFaults := by
    simp only [Receive.step, ho, if_true]
  obtain ⟨t, hst, htb, hti⟩ := leads_of_goTo hi rfl (harriving _)
  have hfaults (now : Nat) : Receive.step now t.broker ⟨r, most, timeout, .readingFaults⟩ =
      Receive.goTo ⟨r, most, timeout, .readingFaults⟩ t.broker
        (.checking (now + timeout.ticks) t.broker.broadcasts) := by
    have htf : t.broker.faults = {} := by
      rw [htb]
      exact hf
    simp only [Receive.step, htf]
    rfl
  obtain ⟨u, htu, hub, hui⟩ := leads_of_goTo hti rfl (hfaults _)
  have hchecking (now : Nat) : Receive.step now u.broker
      ⟨r, most, timeout, .checking (t.now + timeout.ticks) t.broker.broadcasts⟩ =
      Receive.goTo ⟨r, most, timeout, .checking (t.now + timeout.ticks) t.broker.broadcasts⟩
        u.broker (.looking (t.now + timeout.ticks) t.broker.broadcasts) := by
    have huo : u.broker.isOpen r = true := by
      rw [hub, htb]
      exact ho
    simp only [Receive.step, huo, if_true]
  obtain ⟨v, huv, hvb, hvi⟩ := leads_of_goTo hui rfl (hchecking _)
  have hsv : s.Leads v := ((((Leads.refl s).step hbegin).trans hst).trans htu).trans huv
  exact ⟨v, _, _, _, _, hsv, hvb.trans (hub.trans htb), hvi⟩

/-- Every copy that is taken is under a lock. -/
theorem exists_mem_lockAll (supply : Identifier.Supply) (r : Receiver) (issued : Nat)
    {copies : List Copy} {c : Copy} (h : c ∈ copies) :
    ∃ d ∈ lockAll supply r issued copies, d.copy.serial = c.serial := by
  have hserial : c.serial ∈ (lockAll supply r issued copies).map (·.copy.serial) := by
    rw [map_serial_lockAll]
    exact List.mem_map_of_mem h
  obtain ⟨d, hd, hs⟩ := List.mem_map.mp hserial
  exact ⟨d, hd, hs⟩

theorem isOpen_congr {b b' : Broker} (h : b'.closed = b.closed) (r : Receiver) :
    b'.isOpen r = b.isOpen r := by
  rw [Broker.isOpen, Broker.isOpen, h]

/-- Looking at a queue closes no receiver and shows no fault. -/
theorem step_looking_frame (now : Nat) (b : Broker) (r : Receiver) (most : Nat)
    (timeout : Duration) (deadline seen : Nat) :
    (Receive.step now b ⟨r, most, timeout, .looking deadline seen⟩).state.closed = b.closed ∧
      (Receive.step now b ⟨r, most, timeout, .looking deadline seen⟩).state.faults = b.faults := by
  simp only [Receive.step]
  split <;> exact ⟨rfl, rfl⟩

/-- A copy that is at hand can be delivered. -/
theorem AtHand.deliver (h : s.AtHand r n) : ∃ t u m d, s.Leads t ∧ t.after m = some u ∧
    d ∈ t.deliveries m ∧ d.copy.serial = n ∧ d.receiver = r.id ∧ d.entity = r.entity ∧
      u.broker.isOpen r = true ∧ u.broker.faults = {} := by
  obtain ⟨c, hc, hn⟩ := h.waiting
  obtain ⟨t, i, began, deadline, seen, hst, htb, hi⟩ :=
    exists_looking h.receiver h.isOpen h.faults (s.broker.queue r.entity).length .zero
  have hqueue : (t.broker.queue r.entity).take (s.broker.queue r.entity).length =
      s.broker.queue r.entity := by
    rw [htb]
    exact List.take_length
  obtain ⟨d, hd, hs⟩ := exists_mem_lockAll t.broker.supply r t.broker.issued hc
  obtain ⟨hid, hentity, -⟩ := mem_lockAll hd
  have hafter : t.after (.advance i) = some (t.advance i began (.receiving
      ⟨r, (s.broker.queue r.entity).length, .zero, .looking deadline seen⟩)) :=
    after_advance hi rfl
  have hdelivered : d ∈ t.deliveries (.advance i) := by
    rw [deliveries_advance hi]
    simp only [Call.transfer, Transfer.deliveries, hqueue]
    exact hd
  obtain ⟨hclosed, hfaults⟩ := step_looking_frame t.now t.broker r
    (s.broker.queue r.entity).length .zero deadline seen
  refine ⟨t, _, _, d, hst, hafter, hdelivered, hs.trans hn, hid, hentity, ?_, ?_⟩
  · exact (isOpen_congr (hclosed.trans (congrArg Broker.closed htb)) r).trans h.isOpen
  · exact hfaults.trans ((congrArg Broker.faults htb).trans h.faults)

/-! ## Abandoning -/

/-- Left alone, an open receiver that finds no fault puts the copy of its lock back. -/
theorem takes_abandon {b : Broker} {token : LockToken} {l : Lock} (ho : b.isOpen r = true)
    (hf : b.faults = {}) (hl : b.lock? r token = some l) (now : Nat) :
    (Request.settle r token .abandon).call.Takes now b
      ((b.unlock token).recordAbandoned l).broadcast (.settled (.ok ())) 4 := by
  have hfault : (Call.settling ⟨r, token, .abandon, .readingFault⟩).step now b =
      { state := b, progress := .on (.settling ⟨r, token, .abandon, .releasing⟩) } := by
    simp only [Call.step, Settle.step, Settle.fault?, ho, hf, if_true]
    rfl
  have hrelease : (Call.settling ⟨r, token, .abandon, .releasing⟩).step now b =
      { state := b.unlock token
        progress := .on (.settling ⟨r, token, .abandon, .recording l⟩) } := by
    simp only [Call.step, Settle.step, hl]
    rfl
  exact .of_step hfault rfl rfl (.of_step hrelease rfl rfl (.step rfl rfl (.last rfl rfl)))

/-! ## Any number of times -/

/-- **One round**: a copy that is at hand can be delivered and abandoned, and is at hand again. -/
theorem AtHand.round (h : s.AtHand r n) (hs : s.Reachable)
    (hP : ∀ t m u d, s.Leads t → t.after m = some u → d ∈ t.deliveries m → d.copy.serial = n →
      P d.copy.message) : ∃ w, Round r n P s w ∧ w.AtHand r n := by
  obtain ⟨t, u, m, d, hst, hm, hd, hn, hid, hentity, ho, hf⟩ := h.deliver
  have hsu : s.Leads u := hst.step hm
  have hl : u.broker.lock? r d.token = some d :=
    (hs.leads hsu).lock?_of_mem (mem_locks_of_mem_deliveries hm hd) hid
  have hr : r ∈ u.receivers := hsu.mem_receivers h.receiver
  have hbegin := after_begin_of_mem (q := .settle r d.token .abandon) hr rfl
  obtain ⟨w, hw, -, hwb, hcalls⟩ := exists_done_of_takes
    (s := u.accept (.settle r d.token .abandon)) (i := u.calls.length)
    List.getElem?_concat_length (takes_abandon ho hf hl u.now)
  have hdone : w.calls[u.calls.length]? = some ⟨u.now, .done (.settled (.ok ()))⟩ := by
    rw [hcalls]
    refine List.getElem?_set_self ?_
    rw [accept, List.length_append]
    exact Nat.lt_succ_self _
  have hround : Round r n P s w :=
    ⟨t, u, m, d, _, hst, hm, hd, hn, hP t m u d hst hm hd hn, hbegin, hw, hdone⟩
  refine ⟨w, hround, hround.leads.mem_receivers h.receiver, ?_, ?_, d.copy, ?_, hn⟩
  · rw [hwb]
    exact ho
  · rw [hwb]
    exact hf
  · have hq : w.broker.queue r.entity =
        ((u.broker.unlock d.token).recordAbandoned d).queue r.entity := by
      rw [hwb]
      rfl
    rw [hq, queue_recordAbandoned, if_pos hentity.symm]
    exact List.mem_cons_self

/-- **Any number of rounds.** -/
theorem AtHand.redelivered (h : s.AtHand r n) (hs : s.Reachable)
    (hP : ∀ t m u d, s.Leads t → t.after m = some u → d ∈ t.deliveries m → d.copy.serial = n →
      P d.copy.message) (k : Nat) : ∃ w, Redelivered r n P k s w ∧ w.AtHand r n := by
  induction k with
  | zero => exact ⟨s, .none s, h⟩
  | succ k ih =>
    obtain ⟨t, ht, hat⟩ := ih
    obtain ⟨w, hw, hatw⟩ := hat.round (hs.leads ht.leads) fun v m u d htv =>
      hP v m u d (ht.leads.trans htv)
    exact ⟨w, .round ht hw, hatw⟩

end Traffic

end PeekLock.Broker
