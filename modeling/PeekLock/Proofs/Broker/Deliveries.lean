import PeekLock.Proofs.Broker.Conservation

/-!
# PeekLock.Proofs.Broker.Deliveries

In which order messages are delivered.

A receive takes copies from the front of its queue, new copies come to its
end, and whatever was delivered and not completed comes back to its front.
So a queue is always in two parts: copies that have come back, and after
them those that were never delivered, in the order of their arrival
(`InLine`).  Only the second part has anything to say about first
deliveries; they are made in the order of arrival, and copies that have
come back are delivered again before any of them.
-/

namespace PeekLock.Broker

open Identifier (counting)

/-! ## What is delivered -/

/-- The numbers of the copies of an entity that were delivered, in that order. -/
def deliveredAt (e : String) (ds : List Lock) : List Nat :=
  (ds.filter (·.entity = e)).map (·.copy.serial)

/-- The copies of an entity that were delivered, each where it was delivered for the
first time. -/
def firstDeliveries (e : String) (ds : List Lock) : List Nat := (deliveredAt e ds).eraseDups

namespace Traffic

/-- What some moves deliver, one after the other. -/
def deliveriesOver (s : Traffic) : List Move → List Lock
  | [] => []
  | m :: rest => s.deliveries m ++ (s.after m).elim [] (deliveriesOver · rest)

/-- The copies that have arrived in an entity, the oldest first. -/
def arrivedAt (s : Traffic) (e : String) : List Copy :=
  (s.arrivals.filter (·.entity = e)).map (·.copy)

/-- The copies of an entity that were never delivered, the oldest first. -/
def undelivered (s : Traffic) (e : String) (ds : List Lock) : List Copy :=
  (s.arrivedAt e).filter (·.serial ∉ deliveredAt e ds)

end Traffic

@[simp] theorem deliveredAt_nil (e : String) : deliveredAt e [] = [] := rfl

theorem deliveredAt_append (e : String) (ds ds' : List Lock) :
    deliveredAt e (ds ++ ds') = deliveredAt e ds ++ deliveredAt e ds' := by
  simp only [deliveredAt, List.filter_append, List.map_append]

theorem mem_deliveredAt {e : String} {ds : List Lock} {l : Lock} (h : l ∈ ds) (he : l.entity = e) :
    l.copy.serial ∈ deliveredAt e ds :=
  List.mem_map_of_mem (List.mem_filter.mpr ⟨h, decide_eq_true he⟩)

theorem map_serial_lockAll (supply : Identifier.Supply) (r : Receiver) (n : Nat)
    (copies : List Copy) :
    (lockAll supply r n copies).map (·.copy.serial) = copies.map (·.serial) := by
  induction copies generalizing n with
  | nil => rfl
  | cons c rest ih => rw [lockAll, List.map_cons, List.map_cons, ih]; rfl

/-- A receiver delivers copies of its entity only. -/
theorem deliveredAt_lockAll (e : String) (supply : Identifier.Supply) (r : Receiver) (n : Nat)
    (copies : List Copy) : deliveredAt e (lockAll supply r n copies) =
      if e = r.entity then copies.map (·.serial) else [] := by
  unfold deliveredAt
  split
  · next he =>
    have hall : (lockAll supply r n copies).filter (·.entity = e) = lockAll supply r n copies := by
      rw [List.filter_eq_self]
      intro l hl
      simpa [he] using (mem_lockAll hl).2.1
    rw [hall, map_serial_lockAll]
  · next he =>
    have hnone : (lockAll supply r n copies).filter (·.entity = e) = [] := by
      rw [List.filter_eq_nil_iff]
      intro l hl
      simpa [(mem_lockAll hl).2.1] using Ne.symm he
    rw [hnone, List.map_nil]

/-! ## Two parts of a queue -/

theorem eraseDups_of_nodup {l : List Nat} (h : l.Nodup) : l.eraseDups = l := by
  induction l with
  | nil => rfl
  | cons a rest ih =>
    rw [List.nodup_cons] at h
    have hrest : rest.filter (fun b => !b == a) = rest := by
      rw [List.filter_eq_self]
      intro b hb
      have hne : b ≠ a := fun hba => h.1 (hba ▸ hb)
      simpa using hne
    rw [List.eraseDups_cons, hrest, ih h.2]

/-- A queue holds what has come back, and after that the copies that were never
delivered, as they arrived. -/
structure InLine (arrived queue : List Copy) (delivered : List Nat)
    (before returned fresh : List Copy) : Prop where
  arrived : arrived = before ++ fresh
  queue : queue = returned ++ fresh
  /-- The copies that arrived before the rest are those that were delivered. -/
  firsts : delivered.eraseDups = before.map (·.serial)
  returned : ∀ c ∈ returned, c.serial ∈ delivered

namespace InLine

variable {arrived queue before returned fresh : List Copy} {delivered : List Nat}

theorem mem_delivered (h : InLine arrived queue delivered before returned fresh) {n : Nat} :
    n ∈ delivered ↔ n ∈ before.map (·.serial) := by
  rw [← h.firsts, List.mem_eraseDups]

/-- What was never delivered is not among the deliveries. -/
theorem fresh_notMem (h : InLine arrived queue delivered before returned fresh)
    (hd : (arrived.map (·.serial)).Nodup) {c : Copy} (hc : c ∈ fresh) :
    c.serial ∉ delivered := by
  rw [h.arrived, List.map_append, List.nodup_append] at hd
  intro hm
  exact hd.2.2 _ (h.mem_delivered.mp hm) _ (List.mem_map_of_mem hc) rfl

/-- What waits behind the returned copies are exactly the copies that were never
delivered. -/
theorem fresh_eq (h : InLine arrived queue delivered before returned fresh)
    (hd : (arrived.map (·.serial)).Nodup) :
    fresh = arrived.filter (·.serial ∉ delivered) := by
  have hbefore : before.filter (fun c => decide (c.serial ∉ delivered)) = [] := by
    rw [List.filter_eq_nil_iff]
    intro c hc
    simpa using h.mem_delivered.mpr (List.mem_map_of_mem hc)
  have hfresh : fresh.filter (fun c => decide (c.serial ∉ delivered)) = fresh := by
    rw [List.filter_eq_self]
    intro c hc
    simpa using h.fresh_notMem hd hc
  calc
    fresh = before.filter (fun c => decide (c.serial ∉ delivered)) ++
        fresh.filter (fun c => decide (c.serial ∉ delivered)) := by
      rw [hbefore, hfresh, List.nil_append]
    _ = arrived.filter (fun c => decide (c.serial ∉ delivered)) := by
      rw [h.arrived, List.filter_append]

/-- New copies come to the end of the line. -/
theorem arrive (h : InLine arrived queue delivered before returned fresh) (new : List Copy) :
    InLine (arrived ++ new) (queue ++ new) delivered before returned (fresh ++ new) where
  arrived := by rw [h.arrived, List.append_assoc]
  queue := by rw [h.queue, List.append_assoc]
  firsts := h.firsts
  returned := h.returned

/-- Copies that were delivered come back to its front. -/
theorem comeBack (h : InLine arrived queue delivered before returned fresh) {back : List Copy}
    (hb : ∀ c ∈ back, c.serial ∈ delivered) :
    InLine arrived (back ++ queue) delivered before (back ++ returned) fresh where
  arrived := h.arrived
  queue := by rw [h.queue, List.append_assoc]
  firsts := h.firsts
  returned c hc := (List.mem_append.mp hc).elim (hb c) (h.returned c)

/-- A batch from the front: what has come back is delivered again, and then so many
copies for the first time, in the order in which they arrived. -/
theorem deliver (h : InLine arrived queue delivered before returned fresh)
    (hd : (arrived.map (·.serial)).Nodup) (most : Nat) :
    InLine arrived (queue.drop most) (delivered ++ (queue.take most).map (·.serial))
      (before ++ fresh.take (most - returned.length)) (returned.drop most)
      (fresh.drop (most - returned.length)) where
  arrived := by rw [h.arrived, List.append_assoc, List.take_append_drop]
  queue := by rw [h.queue, List.drop_append]
  firsts := by
    have hagain : ((returned.take most).map (·.serial)).removeAll delivered = [] := by
      rw [List.removeAll, List.filter_eq_nil_iff]
      intro n hn
      obtain ⟨c, hc, rfl⟩ := List.mem_map.mp hn
      simpa using h.returned c (List.mem_of_mem_take hc)
    have hfirst : ((fresh.take (most - returned.length)).map (·.serial)).removeAll delivered =
        (fresh.take (most - returned.length)).map (·.serial) := by
      rw [List.removeAll, List.filter_eq_self]
      intro n hn
      obtain ⟨c, hc, rfl⟩ := List.mem_map.mp hn
      simpa using h.fresh_notMem hd (List.mem_of_mem_take hc)
    have hnodup : ((fresh.take (most - returned.length)).map (·.serial)).Nodup := by
      rw [h.arrived, List.map_append, List.nodup_append] at hd
      exact hd.2.1.sublist ((List.take_sublist _ _).map _)
    have hall : ((queue.take most).map (·.serial)).removeAll delivered =
        (fresh.take (most - returned.length)).map (·.serial) := by
      rw [h.queue, List.take_append, List.map_append, List.removeAll, List.filter_append]
      exact congrArg₂ (· ++ ·) hagain hfirst
    rw [List.eraseDups_append, hall, eraseDups_of_nodup hnodup, h.firsts, List.map_append]
  returned c hc :=
    List.mem_append_left _ (h.returned c (List.mem_of_mem_drop hc))

/-- A copy that is delivered for the first time comes after all that have come back. -/
theorem returned_before (h : InLine arrived queue delivered before returned fresh)
    (hd : (arrived.map (·.serial)).Nodup) {most n : Nat} {front back : List Nat}
    (hb : (queue.take most).map (·.serial) = front ++ n :: back) (hn : n ∉ delivered) {c : Copy}
    (hc : c ∈ queue) (hcd : c.serial ∈ delivered) : c.serial ∈ front := by
  have hcr : c ∈ returned := by
    rw [h.queue, List.mem_append] at hc
    exact hc.resolve_right fun hf => h.fresh_notMem hd hf hcd
  have hline : returned.map (·.serial) ++ fresh.map (·.serial) =
      front ++ n :: (back ++ (queue.drop most).map (·.serial)) := by
    rw [← List.map_append, ← h.queue, ← List.cons_append, ← List.append_assoc, ← hb,
      ← List.map_append, List.take_append_drop]
  have hmem : c.serial ∈ returned.map (·.serial) := List.mem_map_of_mem hcr
  obtain ⟨rest, hfront, -⟩ | ⟨rest, hreturned, hrest⟩ := List.append_eq_append_iff.mp hline
  · rw [hfront]
    exact List.mem_append_left _ hmem
  · cases rest with
    | nil => rwa [hreturned, List.append_nil] at hmem
    | cons k rest =>
      have hmemn : n ∈ returned.map (·.serial) := by
        rw [hreturned]
        injection hrest with hnk
        exact List.mem_append_right _ (hnk ▸ List.mem_cons_self)
      obtain ⟨d, hdr, rfl⟩ := List.mem_map.mp hmemn
      exact (hn (h.returned d hdr)).elim

end InLine

namespace Traffic

/-! ## Every order of calls -/

/-- What was delivered so far is known, and each queue is in line with it. -/
structure Paced (s : Traffic) (ds : List Lock) : Prop where
  ledger : s.Ledger
  locks : ∀ l ∈ s.broker.locks, l ∈ ds
  hands : ∀ l ∈ s.hands, l ∈ ds
  inLine : ∀ e, ∃ before returned fresh,
    InLine (s.arrivedAt e) (s.broker.queue e) (deliveredAt e ds) before returned fresh

theorem arrivedAt_advance (s : Traffic) (i began : Nat) (c : Call) (e : String) :
    (s.advance i began c).arrivedAt e =
      s.arrivedAt e ++ copiesIn e ((c.transfer s.broker).arrivals s.broker) := by
  simp only [arrivedAt, Traffic.advance, List.filter_append, List.map_append, copiesIn,
    List.filter_map, List.map_map, Function.comp_def]

theorem deliveries_advance {s : Traffic} {i began : Nat} {c : Call}
    (hi : s.calls[i]? = some ⟨began, .on c⟩) :
    s.deliveries (.advance i) = (c.transfer s.broker).deliveries s.broker := by
  simp only [deliveries, hi]

/-- The copies of an entity arrive in the order of their numbers. -/
theorem Ledger.increasing {s : Traffic} (h : s.Ledger) (e : String) :
    ((s.arrivedAt e).map (·.serial)).Pairwise (· < ·) := by
  have hall : (s.arrivals.map (·.copy.serial)).Pairwise (· < ·) := by
    rw [h.numbered]
    exact List.pairwise_lt_range
  have hsub : ((s.arrivedAt e).map (·.serial)).Sublist (s.arrivals.map (·.copy.serial)) := by
    rw [arrivedAt, List.map_map]
    exact List.filter_sublist.map _
  exact hall.sublist hsub

theorem Ledger.nodup_arrivedAt {s : Traffic} (h : s.Ledger) (e : String) :
    ((s.arrivedAt e).map (·.serial)).Nodup :=
  (h.increasing e).imp Nat.ne_of_lt

theorem deliveriesOver_eq (s : Traffic) (moves : List Move) :
    s.deliveriesOver moves = notesOver deliveries s moves := by
  induction moves generalizing s with
  | nil => rfl
  | cons m rest ih =>
    rw [deliveriesOver, notesOver]
    cases s.after m with
    | none => rfl
    | some t => rw [Option.elim_some, Option.elim_some, ih]

namespace Paced

variable {s : Traffic} {ds : List Lock}

/-- A transfer keeps the queues in line: copies arrive at the end, leave from the front,
and come back to the front. -/
theorem inLine_apply (h : s.Paced ds) {t : Transfer} (ht : ∀ l, t.restores? = some l → l ∈ ds)
    (e : String) : ∃ before returned fresh,
      InLine (s.arrivedAt e ++ copiesIn e (t.arrivals s.broker)) ((t.apply s.broker).queue e)
        (deliveredAt e (ds ++ t.deliveries s.broker)) before returned fresh := by
  obtain ⟨before, returned, fresh, hl⟩ := h.inLine e
  rw [deliveredAt_append]
  -- But for arrivals and deliveries a transfer can only put copies back to the front.
  have hback {back : List Copy} (hb : ∀ c ∈ back, c.serial ∈ deliveredAt e ds) :
      ∃ before returned fresh, InLine (s.arrivedAt e ++ copiesIn e []) (back ++ s.broker.queue e)
        (deliveredAt e ds ++ deliveredAt e []) before returned fresh := by
    refine ⟨before, back ++ returned, fresh, ?_⟩
    rw [copiesIn_nil, deliveredAt_nil, List.append_nil, List.append_nil]
    exact hl.comeBack hb
  cases t with
  | nothing => exact hback fun c hc => absurd hc List.not_mem_nil
  | arrival target m =>
    simp only [Transfer.apply, Transfer.deliveries]
    rw [queue_enqueue, deliveredAt_nil, List.append_nil]
    exact ⟨_, _, _, hl.arrive _⟩
  | take r most =>
    simp only [Transfer.apply, Transfer.deliveries, Transfer.arrivals]
    rw [queue_take, deliveredAt_lockAll, copiesIn_nil, List.append_nil]
    by_cases he : e = r.entity
    · subst he
      rw [if_pos rfl, if_pos rfl]
      exact ⟨_, _, _, hl.deliver (h.ledger.nodup_arrivedAt _) most⟩
    · rw [if_neg he, if_neg he, List.append_nil]
      exact ⟨_, _, _, hl⟩
  | release l => exact hback fun c hc => absurd hc List.not_mem_nil
  | completion l => exact hback fun c hc => absurd hc List.not_mem_nil
  | restoration l =>
    simp only [Transfer.apply]
    rw [queue_recordAbandoned]
    refine hback fun c hc => ?_
    split at hc
    · next he =>
      rw [List.mem_singleton] at hc
      rw [hc]
      exact mem_deliveredAt (ht l rfl) he.symm
    · contradiction
  | lapse r =>
    simp only [Transfer.apply]
    rw [queue_lapse]
    refine hback fun c hc => ?_
    obtain ⟨l, hl, rfl⟩ := List.mem_map.mp (List.mem_reverse.mp hc)
    rw [List.mem_filter, decide_eq_true_eq] at hl
    exact mem_deliveredAt (h.locks l (List.mem_filter.mp hl.1).1) hl.2

/-- What moves no copy delivers nothing. -/
theorem of_rests {t : Traffic} (h : s.Paced ds) (hr : s.Rests t) : t.Paced ds where
  ledger := h.ledger.of_rests hr
  locks l hl := h.locks l (hr.broker.locks.mem_iff.mp hl)
  hands l hl := h.hands l (hr.hands ▸ hl)
  inLine e := by
    rw [arrivedAt, hr.arrivals, hr.broker.queue e]
    exact h.inLine e

theorem advance (h : s.Paced ds) {i began : Nat} {c : Call}
    (hi : s.calls[i]? = some ⟨began, .on c⟩) :
    (s.advance i began c).Paced (ds ++ (c.transfer s.broker).deliveries s.broker) where
  ledger := h.ledger.advance hi
  locks l hl := by
    have hl' : l ∈ ((c.transfer s.broker).apply s.broker).locks :=
      (c.step_keepsCopies s.now s.broker).locks.mem_iff.mp hl
    rw [List.mem_append]
    exact (Transfer.mem_locks_or_deliveries hl').imp_left (h.locks l)
  hands l hl :=
    List.mem_append_left _ ((mem_hands_advance hl).elim (h.hands l) (h.locks l))
  inLine e := by
    have hq : (s.advance i began c).broker.queue e =
        ((c.transfer s.broker).apply s.broker).queue e :=
      (c.step_keepsCopies s.now s.broker).queue e
    rw [arrivedAt_advance, hq]
    refine h.inLine_apply (fun l hl => h.hands l ?_) e
    have hheld := Transfer.putsDown?_of_restores? hl
    rw [← c.held?_eq_putsDown? s.broker] at hheld
    exact List.mem_filterMap.mpr ⟨⟨began, .on c⟩, List.mem_of_getElem? hi, hheld⟩

/-- A move adds what it delivers, and leaves everything in line. -/
theorem step (h : s.Paced ds) {m : Move} {t : Traffic} (hm : s.after m = some t) :
    t.Paced (ds ++ s.deliveries m) := by
  obtain ⟨i, began, c, rfl, hi, rfl⟩ | ⟨hrests, hnone⟩ := advances_or_rests hm
  · rw [deliveries_advance hi]
    exact h.advance hi
  · rw [hnone, List.append_nil]
    exact h.of_rests hrests

theorem run (h : s.Paced ds) {moves : List Move} {t : Traffic} (hr : s.run moves = some t) :
    t.Paced (ds ++ s.deliveriesOver moves) := by
  rw [deliveriesOver_eq]
  exact keeps_of_run hr h fun _ _ _ _ hp hm => hp.step hm

theorem start (supply : Identifier.Supply) : Paced (Traffic.start supply) [] where
  ledger := Reachable.ledger ⟨supply, .refl _⟩
  locks _ hl := by contradiction
  hands _ hl := by contradiction
  inLine _ := ⟨[], [], [], rfl, rfl, rfl, fun _ hc => by contradiction⟩

end Paced

/-- The deliveries of an entity are in order. -/
structure InOrder (s : Traffic) (ds : List Lock) (e : String) : Prop where
  /-- Copies that were delivered and have come back wait in front of exactly those that
  were never delivered. -/
  queue : ∃ returned, s.broker.queue e = returned ++ s.undelivered e ds ∧
    ∀ c ∈ returned, c.serial ∈ deliveredAt e ds
  /-- Arrivals are in the order of their numbers. -/
  arrivals : ((s.arrivedAt e).map (·.serial)).Pairwise (· < ·)
  /-- The first deliveries are those of the copies that arrived first, in that order. -/
  firsts : firstDeliveries e ds <+: (s.arrivedAt e).map (·.serial)
  /-- A copy is delivered for the first time only after every copy that has come back. -/
  returnedFirst : ∀ m t, s.after m = some t → ∀ front d back,
    s.deliveries m = front ++ d :: back → d.entity = e → d.copy.serial ∉ deliveredAt e ds →
      ∀ c ∈ s.broker.queue e, c.serial ∈ deliveredAt e ds → c.serial ∈ front.map (·.copy.serial)
  /-- What a move delivers is the batch that a receive ends with. -/
  handed : ∀ m t, s.after m = some t → s.deliveries m ≠ [] → ∃ i began c,
    m = .advance i ∧ s.calls[i]? = some ⟨began, .on (.receiving c)⟩ ∧
      t.calls[i]? = some ⟨began, .done (.received (.ok ((s.deliveries m).map (·.copy.message))))⟩
  /-- A batch that a receive ends with is what its last step delivers. -/
  batches : ∀ i began c t messages, s.calls[i]? = some ⟨began, .on (.receiving c)⟩ →
    s.after (.advance i) = some t →
      t.calls[i]? = some ⟨began, .done (.received (.ok messages))⟩ →
        messages = (s.deliveries (.advance i)).map (·.copy.message)

/-- Only a step of a call delivers something. -/
theorem advance_of_deliveries {s : Traffic} {m : Move} (h : s.deliveries m ≠ []) :
    ∃ i began c, m = .advance i ∧ s.calls[i]? = some ⟨began, .on c⟩ ∧
      ∃ r most, c.transfer s.broker = .take r most := by
  unfold deliveries at h
  split at h
  · next i =>
    split at h
    · next began c hi =>
      refine ⟨i, began, c, rfl, hi, ?_⟩
      cases ht : c.transfer s.broker with
      | take r most => exact ⟨r, most, rfl⟩
      | _ => rw [ht] at h; contradiction
    · contradiction
  · contradiction

/-- A receive ends with the messages that its step delivers. -/
theorem progress_of_take {now : Nat} {b : Broker} {c : Call} {r : Receiver} {most : Nat}
    (ht : c.transfer b = .take r most) (hne : (c.transfer b).deliveries b ≠ []) :
    ∃ k, c = .receiving k ∧ (c.step now b).progress =
      .done (.received (.ok (((c.transfer b).deliveries b).map (·.copy.message)))) := by
  obtain ⟨timeout, deadline, seen, rfl⟩ := Call.looking_of_take ht
  refine ⟨_, rfl, ?_⟩
  have hsome : (b.take r most).1.isEmpty = false := by
    rw [ht] at hne
    simpa [take, Transfer.deliveries] using hne
  simp only [Call.step, Step.map, Receive.step]
  rw [hsome]
  rfl

/-- A receive delivers nothing but the messages that it ends with. -/
theorem messages_of_step {now : Nat} {b : Broker} {c : Receive} {messages : List Message}
    (h : (c.step now b).progress = .done (.ok messages)) :
    messages = (((Call.receiving c).transfer b).deliveries b).map (·.copy.message) := by
  obtain ⟨r, most, timeout, point⟩ := c
  cases point with
  | looking deadline seen =>
    simp only [Receive.step] at h
    split at h
    · contradiction
    · injection h with h
      injection h with h
      exact h.symm
  | delayed due => contradiction
  | parked deadline seen =>
    simp only [Receive.step] at h
    split at h
    · contradiction
    · injection h with h
      injection h with h
      exact h.symm
  | _ => simp only [Receive.step] at h; split at h <;> cases h

/-- **Order of first deliveries**: in every run, and for every entity, the copies
that have come back wait in front of those that were never delivered, first
deliveries are made in the order of arrival, within each batch and over the
whole run, and whatever has come back is delivered again before any of them. -/
theorem inOrder_of_run {supply : Identifier.Supply} {moves : List Move} {s : Traffic}
    (h : run (start supply) moves = some s) (e : String) :
    s.InOrder (deliveriesOver (start supply) moves) e := by
  have hp : s.Paced (deliveriesOver (start supply) moves) := (Paced.start supply).run h
  have hd := hp.ledger.nodup_arrivedAt e
  obtain ⟨before, returned, fresh, hl⟩ := hp.inLine e
  constructor
  case queue =>
    refine ⟨returned, ?_, hl.returned⟩
    rw [undelivered, ← hl.fresh_eq hd]
    exact hl.queue
  case arrivals => exact hp.ledger.increasing e
  case firsts =>
    rw [firstDeliveries, hl.firsts, hl.arrived, List.map_append]
    exact List.prefix_append _ _
  case returnedFirst =>
    intro m t hm front d back hs hde hdn c hc hcd
    have hne : s.deliveries m ≠ [] := by
      rw [hs]
      exact List.append_ne_nil_of_right_ne_nil _ (List.cons_ne_nil _ _)
    obtain ⟨i, began, k, rfl, hi, r, most, ht⟩ := advance_of_deliveries hne
    rw [deliveries_advance hi, ht, Transfer.deliveries] at hs
    have hdm : d ∈ lockAll s.broker.supply r s.broker.issued
        ((s.broker.queue r.entity).take most) := by
      rw [hs]
      exact List.mem_append_right _ List.mem_cons_self
    have her : r.entity = e := ((mem_lockAll hdm).2.1).symm.trans hde
    have hb := congrArg (List.map (·.copy.serial)) hs
    rw [map_serial_lockAll, List.map_append, List.map_cons, her] at hb
    exact hl.returned_before hd hb hdn hc hcd
  case handed =>
    intro m t hm hne
    obtain ⟨i, began, c, rfl, hi, r, most, ht⟩ := advance_of_deliveries hne
    obtain ⟨-, rfl⟩ := eq_advance hi hm
    rw [deliveries_advance hi] at hne ⊢
    obtain ⟨k, rfl, hp⟩ := progress_of_take ht hne
    exact ⟨i, began, k, rfl, hi, hp ▸ getElem?_advance hi⟩
  case batches =>
    intro i began c t messages hi hm ht
    obtain ⟨-, -, hp⟩ := advance_of_received hi hm ht
    rw [deliveries_advance hi]
    exact messages_of_step hp

/-- Three messages; the first two are received and the second one is abandoned. -/
def comeBack : List Move := [
  .begin (.createReceiver "orders"), .advance 0, .advance 0,
  .begin (.sendBatch "orders" [[1], [2], [3]] {}),
  .advance 1, .advance 1, .advance 1, .advance 1, .advance 1, .advance 1, .advance 1,
  .begin (.receive ⟨0, "orders"⟩ 2 .zero), .advance 2, .advance 2, .advance 2, .advance 2,
  .begin (.settle ⟨0, "orders"⟩ ⟨counting.nth 4⟩ .abandon),
  .advance 3, .advance 3, .advance 3, .advance 3]

theorem inOrder_comeBack : ∃ s, run {} comeBack = some s ∧
    (s.broker.queue "orders").map (·.serial) = [1, 2] ∧
    deliveredAt "orders" (deliveriesOver {} comeBack) = [0, 1] ∧
    (s.undelivered "orders" (deliveriesOver {} comeBack)).map (·.serial) = [2] ∧
    s.InOrder (deliveriesOver {} comeBack) "orders" := by
  have hrun : (run {} comeBack).any fun s =>
      (s.broker.queue "orders").map (·.serial) = [1, 2] ∧
      deliveredAt "orders" (deliveriesOver {} comeBack) = [0, 1] ∧
      (s.undelivered "orders" (deliveriesOver {} comeBack)).map (·.serial) = [2] := by
    decide
  obtain ⟨s, hs, hp⟩ := (Option.any_eq_true _ _).mp hrun
  obtain ⟨hqueue, hdelivered, hfresh⟩ := of_decide_eq_true hp
  exact ⟨s, hs, hqueue, hdelivered, hfresh, inOrder_of_run hs "orders"⟩

end Traffic

end PeekLock.Broker
