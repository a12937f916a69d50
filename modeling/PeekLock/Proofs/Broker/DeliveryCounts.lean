import PeekLock.Proofs.Broker.Contents
import PeekLock.Proofs.Broker.SingleUse

/-!
# PeekLock.Proofs.Broker.DeliveryCounts

How often a copy was delivered, and what a batch is.

A message carries its delivery count with it: from the queue under a lock,
and from there back to the queue, whether it is abandoned or its lock
lapses.  Every copy is in one place only, so the count that is found there
is the number of its deliveries (`Counted`), and the next delivery of the
copy says one more.
-/

namespace PeekLock.Broker

open Identifier (counting)

/-- How often a copy is among some deliveries. -/
def timesDelivered (ds : List Lock) (n : Nat) : Nat := (ds.map (·.copy.serial)).count n

theorem timesDelivered_append (ds ds' : List Lock) (n : Nat) :
    timesDelivered (ds ++ ds') n = timesDelivered ds n + timesDelivered ds' n := by
  rw [timesDelivered, List.map_append, List.count_append]
  rfl

theorem timesDelivered_pos {ds : List Lock} {d : Lock} (h : d ∈ ds) :
    0 < timesDelivered ds d.copy.serial :=
  List.count_pos_iff.mpr (List.mem_map_of_mem h)

theorem timesDelivered_eq_zero {ds : List Lock} {n : Nat} (h : ∀ d ∈ ds, d.copy.serial ≠ n) :
    timesDelivered ds n = 0 := by
  rw [timesDelivered, List.count_eq_zero]
  intro hn
  obtain ⟨d, hd, hs⟩ := List.mem_map.mp hn
  exact h d hd hs

/-! ## Messages that were never delivered -/

/-- The message that a call is about to put into queues. -/
def Call.outgoing? : Call → Option Message
  | .sending (.enqueueing _ m) => some m
  | .sendingBatch (.enqueueing _ _ m _ _) => some m
  | _ => none

theorem deliveryCount_buildMessage (b : Broker) (now : Nat) (body : List UInt8)
    (options : SendOptions) : (b.buildMessage now body options).1.deliveryCount = 0 := by
  unfold buildMessage
  split <;> rfl

/-- A message that a call is about to put into queues was just built. -/
theorem Call.deliveryCount_of_step {now : Nat} {b : Broker} {c c' : Call} {m : Message}
    (hp : (c.step now b).progress = .on c') (hm : c'.outgoing? = some m) :
    m.deliveryCount = 0 := by
  have hgoOn {b : Broker} {target : String} {count : Nat} {options : SendOptions}
      {bodies : List (List UInt8)} {k : SendBatch}
      (hk : (SendBatch.goOn now b target count options bodies).progress = .on k)
      (hm : outgoing? (.sendingBatch k) = some m) : m.deliveryCount = 0 := by
    cases bodies with
    | nil => contradiction
    | cons body rest =>
      cases hk
      cases hm
      exact deliveryCount_buildMessage ..
  cases c with
  | sending c =>
    obtain ⟨k, hk, rfl⟩ := Progress.map_eq_on hp
    cases c with
    | checking target body options =>
      simp only [Send.step] at hk
      split at hk
      · contradiction
      · cases hk
        cases hm
        exact deliveryCount_buildMessage ..
    | enqueueing target m' =>
      cases hk
      contradiction
    | announcing target id => contradiction
  | sendingBatch c =>
    obtain ⟨k, hk, rfl⟩ := Progress.map_eq_on hp
    cases c with
    | checking target bodies options =>
      simp only [SendBatch.step] at hk
      split at hk
      · contradiction
      · exact hgoOn hk hm
    | enqueueing target count m' rest options =>
      cases hk
      contradiction
    | announcing target count rest options => exact hgoOn hk hm
  | subscribing topic name => contradiction
  | arranging faults => contradiction
  | _ =>
    obtain ⟨k, -, rfl⟩ := Progress.map_eq_on hp
    contradiction

/-- The copies that a step makes are of the message that its call has built. -/
theorem Call.outgoing?_of_mem_arrivals {b : Broker} {c : Call} {p : String × Copy}
    (h : p ∈ (c.transfer b).arrivals b) : c.outgoing? = some p.2.message := by
  unfold transfer at h
  split at h
  case h_1 target m => exact congrArg some (message_of_mem_copiesFor h).symm
  case h_2 target count m rest options => exact congrArg some (message_of_mem_copiesFor h).symm
  case h_4 r token verdict => cases hl : b.lock? r token <;> rw [hl] at h <;> contradiction
  all_goals contradiction

namespace Traffic

/-- No call on its way is about to send a message that was delivered. -/
theorem Reachable.outgoing {s : Traffic} (h : s.Reachable) {j began : Nat} {c : Call}
    (hj : s.calls[j]? = some ⟨began, .on c⟩) {m : Message} (hm : c.outgoing? = some m) :
    m.deliveryCount = 0 := by
  obtain ⟨supply, h⟩ := h
  have hall := h.every_call (P := fun c => ∀ m, c.outgoing? = some m → m.deliveryCount = 0)
    (fun j began c hj => by contradiction) (fun q m hm => by cases q <;> contradiction)
    (fun now b c c' _ hp m hm => Call.deliveryCount_of_step hp hm)
  exact hall j began c hj m hm

/-! ## One place for each copy -/

/-- The copies of an entity that are not done with, wherever they are. -/
def copiesAt (s : Traffic) (e : String) : List Copy :=
  s.broker.queue e ++ (copiesOf e s.broker.locks ++ copiesOf e s.hands)

theorem mem_copiesOf {e : String} {locks : List Lock} {c : Copy} :
    c ∈ copiesOf e locks ↔ ∃ l ∈ locks, l.entity = e ∧ l.copy = c := by
  simp only [copiesOf, List.mem_map, List.mem_filter, decide_eq_true_eq, and_assoc]

theorem mem_copiesAt {s : Traffic} {e : String} {c : Copy} (h : s.Has e c) : c ∈ s.copiesAt e := by
  rw [copiesAt, List.mem_append, List.mem_append, mem_copiesOf, mem_copiesOf]
  cases h with
  | waiting h => exact .inl h
  | locked l h he hc => exact .inr (.inl ⟨l, h, he, hc⟩)
  | inHands l h he hc => exact .inr (.inr ⟨l, h, he, hc⟩)

theorem countP_copiesAt (s : Traffic) (e : String) (n : Nat) :
    (s.copiesAt e).countP (·.serial = n) = s.balance e n := by
  rw [copiesAt, List.countP_append, List.countP_append, countP_serial_copiesOf,
    countP_serial_copiesOf, balance, waiting, locked, inHands, Nat.add_assoc]

/-- Copies that share a number are one copy in one entity. -/
theorem Ledger.eq_of_has {s : Traffic} (h : s.Ledger) {e e' : String} {c d : Copy}
    (hc : s.Has e c) (hd : s.Has e' d) (hs : c.serial = d.serial) : e = e' ∧ c = d := by
  obtain ⟨a, ha, rfl, hca⟩ := h.traced e c hc
  obtain ⟨a', ha', rfl, hda⟩ := h.traced e' d hd
  obtain rfl : a = a' := h.eq_of_serial ha ha' (hca.serial.symm.trans (hs.trans hda.serial))
  refine ⟨rfl, ?_⟩
  have hle : (s.copiesAt a.entity).countP (·.serial = a.copy.serial) ≤ 1 := by
    have hone := h.balanced a ha
    rw [countP_copiesAt]
    omega
  exact eq_of_mem_of_countP_le_one hle (mem_copiesAt hc) (decide_eq_true hca.serial)
    (mem_copiesAt hd) (decide_eq_true hda.serial)

/-- What is delivered has waited in the queue of its entity. -/
theorem handOut_of_mem_deliveries {s : Traffic} {m : Move} {d : Lock} (h : d ∈ s.deliveries m) :
    ∃ c ∈ s.broker.queue d.entity, d.copy = c.handOut d.token := by
  obtain ⟨i, began, k, rfl, hi, -⟩ := advance_of_deliveries (List.ne_nil_of_mem h)
  rw [deliveries_advance hi] at h
  exact Transfer.handOut_of_mem_deliveries h

/-- A copy that is somewhere after a move was there before, or the move delivers it, or it
arrives under a new number. -/
theorem Has.before {s t : Traffic} {m : Move} {e : String} {d : Copy} (h : t.Has e d)
    (hm : s.after m = some t) : s.Has e d ∨ (∃ l ∈ s.deliveries m, l.copy = d) ∨
      ∃ a ∈ t.arrivals, a.copy = d ∧ s.broker.copies ≤ d.serial := by
  obtain ⟨i, began, c, rfl, hi, rfl⟩ | ⟨hrests, -⟩ := advances_or_rests hm
  · rw [deliveries_advance hi]
    obtain hd | ⟨l, hl, -, hc⟩ | ha := h.of_advance hi
    · exact .inl hd
    · exact .inr (.inl ⟨l, hl, hc⟩)
    · refine .inr (.inr ⟨⟨i, e, d⟩, ?_, rfl, copies_le_serial ha⟩)
      exact List.mem_append_right _ (List.mem_map_of_mem ha)
  · exact .inl (h.of_rests hrests)

/-- A copy arrives with a message that was never delivered. -/
theorem Reachable.deliveryCount_arrivals {s : Traffic} (h : s.Reachable) :
    ∀ a ∈ s.arrivals, a.copy.message.deliveryCount = 0 := by
  obtain ⟨supply, h⟩ := h
  induction h with
  | refl => exact fun a ha => by contradiction
  | @step s t m hs hm ih =>
    intro a ha
    obtain ⟨i, began, c, -, hi, rfl⟩ | ⟨hrests, -⟩ := advances_or_rests hm
    · obtain ha | ha := List.mem_append.mp ha
      · exact ih a ha
      · obtain ⟨p, hp, rfl⟩ := List.mem_map.mp ha
        exact Reachable.outgoing ⟨supply, hs⟩ hi (Call.outgoing?_of_mem_arrivals hp)
    · exact ih a (hrests.arrivals ▸ ha)

/-! ## Counting deliveries -/

theorem nodup_token_deliveries (s : Traffic) (m : Move) :
    ((s.deliveries m).map (·.token)).Nodup := by
  unfold deliveries
  split
  · split
    · exact Transfer.nodup_deliveries _ _
    · exact List.nodup_nil
  · exact List.nodup_nil

/-- No move delivers a copy twice. -/
theorem nodup_serial_deliveries {s t : Traffic} {m : Move} (ht : t.Ledger)
    (hm : s.after m = some t) : ((s.deliveries m).map (·.copy.serial)).Nodup := by
  have hlocked (d : Lock) (hd : d ∈ s.deliveries m) : d ∈ t.broker.locks :=
    mem_locks_of_mem_deliveries hm hd
  refine List.Nodup.map_on (fun d hd k hk hs => ?_) (nodup_token_deliveries s m).of_map
  exact List.inj_on_of_nodup_map ht.nodup_locked (hlocked d hd) (hlocked k hk) hs

/-- Every copy counts its deliveries. -/
structure Counted (s : Traffic) (ds : List Lock) : Prop where
  reachable : s.Reachable
  arrived : ∀ d ∈ ds, ∃ a ∈ s.arrivals, a.copy.serial = d.copy.serial
  carried : ∀ e c, s.Has e c → c.message.deliveryCount = timesDelivered ds c.serial
  delivered : ∀ d ∈ ds, d.copy.message.deliveryCount ≤ timesDelivered ds d.copy.serial

namespace Counted

variable {s t : Traffic} {ds : List Lock} {m : Move}

theorem start (supply : Identifier.Supply) : Counted (Traffic.start supply) [] where
  reachable := ⟨supply, .refl _⟩
  arrived d hd := by contradiction
  carried e c hc := by rcases hc with hc | ⟨l, hl, -, -⟩ | ⟨l, hl, -, -⟩ <;> contradiction
  delivered d hd := by contradiction

/-- A copy with a new number was never delivered. -/
theorem timesDelivered_new (h : s.Counted ds) {n : Nat} (hn : s.broker.copies ≤ n) :
    timesDelivered ds n = 0 := by
  refine timesDelivered_eq_zero fun d hd hs => ?_
  obtain ⟨a, ha, has⟩ := h.arrived d hd
  have hlt := h.reachable.ledger.serial_lt ha
  omega

/-- A delivery says one more than there were before of its copy. -/
theorem deliveryCount_eq (h : s.Counted ds) {d : Lock} (hd : d ∈ s.deliveries m) :
    d.copy.message.deliveryCount = timesDelivered ds d.copy.serial + 1 := by
  obtain ⟨c, hc, hcopy⟩ := handOut_of_mem_deliveries hd
  rw [hcopy]
  exact congrArg (· + 1) (h.carried d.entity c (.waiting hc))

/-- A move keeps the counts: what it delivers is nowhere but under its lock. -/
theorem step (h : s.Counted ds) (hm : s.after m = some t) : t.Counted (ds ++ s.deliveries m) := by
  have ht : t.Reachable := h.reachable.step hm
  have hlocked {l : Lock} (hl : l ∈ s.deliveries m) : t.Has l.entity l.copy :=
    .locked l (mem_locks_of_mem_deliveries hm hl) rfl rfl
  constructor
  case reachable => exact ht
  case arrived =>
    intro d hd
    obtain hd | hd := List.mem_append.mp hd
    · obtain ⟨a, ha, hs⟩ := h.arrived d hd
      exact ⟨a, ((Leads.refl s).step hm).arrivals_subset ha, hs⟩
    · obtain ⟨a, ha, -, hda⟩ := ht.ledger.traced _ _ (hlocked hd)
      exact ⟨a, ha, hda.serial.symm⟩
  case carried =>
    intro e c hc
    rw [timesDelivered_append]
    by_cases hex : ∃ l ∈ s.deliveries m, l.copy.serial = c.serial
    · obtain ⟨l, hl, hs⟩ := hex
      obtain ⟨-, rfl⟩ := ht.ledger.eq_of_has (hlocked hl) hc hs
      have hone : timesDelivered (s.deliveries m) l.copy.serial = 1 :=
        List.count_eq_one_of_mem (nodup_serial_deliveries ht.ledger hm) (List.mem_map_of_mem hl)
      rw [hone, h.deliveryCount_eq hl]
    · have hnone : timesDelivered (s.deliveries m) c.serial = 0 :=
        timesDelivered_eq_zero fun l hl hs => hex ⟨l, hl, hs⟩
      rw [hnone, Nat.add_zero]
      obtain hc | ⟨l, hl, rfl⟩ | ⟨a, ha, rfl, hnew⟩ := hc.before hm
      · exact h.carried e c hc
      · exact (hex ⟨l, hl, rfl⟩).elim
      · rw [ht.deliveryCount_arrivals a ha, h.timesDelivered_new hnew]
  case delivered =>
    intro d hd
    rw [timesDelivered_append]
    obtain hd | hd := List.mem_append.mp hd
    · exact Nat.le_trans (h.delivered d hd) (Nat.le_add_right _ _)
    · rw [h.deliveryCount_eq hd]
      exact Nat.add_le_add_left (timesDelivered_pos hd) _

/-- Within a batch, no delivery counts for another. -/
theorem deliveryCount_eq_of_split (h : s.Counted ds) (hm : s.after m = some t)
    {front back : List Lock} {d : Lock} (hd : s.deliveries m = front ++ d :: back) :
    d.copy.message.deliveryCount = timesDelivered (ds ++ front) d.copy.serial + 1 := by
  have hmem : d ∈ s.deliveries m := by
    rw [hd]
    exact List.mem_append_right _ List.mem_cons_self
  have hnodup := nodup_serial_deliveries (h.step hm).reachable.ledger hm
  rw [hd, List.map_append, List.map_cons, List.nodup_append] at hnodup
  have hfront : timesDelivered front d.copy.serial = 0 := timesDelivered_eq_zero fun k hk =>
    hnodup.2.2 _ (List.mem_map_of_mem hk) _ List.mem_cons_self
  rw [timesDelivered_append, hfront, Nat.add_zero]
  exact h.deliveryCount_eq hmem

/-- Thirty-two bits are enough for the count of a copy that was delivered less often than there
are words. -/
theorem deliveryCount_lt (h : s.Counted ds) {d : Lock} (hd : d ∈ ds)
    (hfew : timesDelivered ds d.copy.serial < 2 ^ 32) : d.copy.message.deliveryCount < 2 ^ 32 :=
  Nat.lt_of_le_of_lt (h.delivered d hd) hfew

/-- Whatever is done from the beginning on. -/
theorem of_run {supply : Identifier.Supply} {moves : List Move}
    (h : run (Traffic.start supply) moves = some s) :
    s.Counted (deliveriesOver (Traffic.start supply) moves) := by
  rw [deliveriesOver_eq]
  exact keeps_of_run h (start supply) fun _ _ _ _ hc hm => hc.step hm

end Counted

theorem Tracked.start (supply : Identifier.Supply) : Tracked (Traffic.start supply) [] where
  minted := Reachable.minted ⟨supply, .refl _⟩
  distinct := List.nodup_nil
  drawn _ hl := by contradiction
  named _ hl := by contradiction
  locks _ hl := by contradiction
  hands _ hl := by contradiction
  completed _ hc := by contradiction
  abandoned _ hc := by contradiction
  fate _ hl := by contradiction

/-! ## The size of a batch -/

/-- Only a receive that looks at its queue and takes nothing parks itself. -/
theorem looking_of_step_parked {now : Nat} {b : Broker} {k c : Receive} {deadline seen : Nat}
    (h : (k.step now b).progress = .on c) (hp : c.point = .parked deadline seen) :
    k = { c with point := .looking deadline seen } ∧
      (b.queue c.receiver.entity).take c.most = [] := by
  obtain ⟨r, most, timeout, point⟩ := k
  cases point with
  | looking deadline' seen' =>
    simp only [Receive.step] at h
    split at h
    · next hempty =>
      cases h
      cases hp
      exact ⟨rfl, take_queue_of_isEmpty hempty⟩
    · contradiction
  | delayed due =>
    cases h
    contradiction
  | _ =>
    simp only [Receive.step] at h
    split at h <;> cases h <;> contradiction

/-- How many messages the last look of a receive at its queue takes: as many as it asks for, or
as there are. -/
inductive LastLook (s : Traffic) (i began : Nat) (c : Receive) : Nat → Prop where
  /-- It is about to look. -/
  | now {deadline seen : Nat} (hp : c.point = .looking deadline seen) :
    LastLook s i began c (min c.most (s.broker.queue c.receiver.entity).length)
  /-- It has looked, and has not gone on since. -/
  | before {u v : Traffic} {deadline seen : Nat} (hu : u.Reachable)
    (hi : u.calls[i]? = some ⟨began, .on (.receiving { c with point := .looking deadline seen })⟩)
    (hm : u.after (.advance i) = some v) (hl : v.Leads s)
    (hv : v.calls[i]? = some ⟨began, .on (.receiving c)⟩) :
    LastLook s i began c (min c.most (u.broker.queue c.receiver.entity).length)

/-- While a receive is parked, its last look remains the last one. -/
theorem LastLook.later {s t : Traffic} {i began n : Nat} {c : Receive} {deadline seen : Nat}
    {m : Move} (h : s.LastLook i began c n) (hp : c.point = .parked deadline seen)
    (hm : s.after m = some t) : t.LastLook i began c n := by
  cases h with
  | now hl =>
    rw [hp] at hl
    contradiction
  | before hu hi hu' hl hv => exact .before hu hi hu' (hl.step hm) hv

/-- A parked receive took nothing when it looked. -/
theorem Reachable.lastLook_parked {s : Traffic} (h : s.Reachable) {i began : Nat} {c : Receive}
    {deadline seen : Nat} (hi : s.calls[i]? = some ⟨began, .on (.receiving c)⟩)
    (hp : c.point = .parked deadline seen) : s.LastLook i began c 0 := by
  obtain ⟨supply, h⟩ := h
  induction h with
  | refl => contradiction
  | @step s t m hs hm ih =>
    have hkept (hi : s.calls[i]? = some ⟨began, .on (.receiving c)⟩) : t.LastLook i began c 0 :=
      (ih hi).later hp hm
    obtain ⟨q, -, -, rfl⟩ | ⟨j, began', k, rfl, hj, -, rfl⟩ | ⟨j, began', k, -, hj, rfl⟩ |
      ⟨ms, -, rfl⟩ | ⟨locks, -, -, rfl⟩ := after_cases hm
    · obtain hi | ⟨-, harriving⟩ := receiving_of_accept hi
      · exact hkept hi
      · rw [hp] at harriving
        contradiction
    · obtain ⟨-, hi⟩ | ⟨rfl, rfl, hon⟩ := call_of_advance hj hi
      · exact hkept hi
      · obtain ⟨k, rfl, hstep⟩ := receiving_of_step hon
        obtain ⟨rfl, hnone⟩ := looking_of_step_parked hstep hp
        have hzero : min c.most (s.broker.queue c.receiver.entity).length = 0 := by
          rw [← List.length_take, hnone, List.length_nil]
        exact hzero ▸ .before ⟨supply, hs⟩ hj hm (.refl _) hi
    · exact hkept (receiving_of_dropReceive hj hi)
    · exact hkept hi
    · exact hkept hi

/-- A receive that ends with messages has taken them when it looked the last time. -/
theorem Reachable.lastLook_of_received {s t : Traffic} (h : s.Reachable) {i began : Nat}
    {c : Receive} {messages : List Message}
    (hi : s.calls[i]? = some ⟨began, .on (.receiving c)⟩) (hm : s.after (.advance i) = some t)
    (ht : t.calls[i]? = some ⟨began, .done (.received (.ok messages))⟩) :
    s.LastLook i began c messages.length := by
  obtain ⟨-, -, hp⟩ := advance_of_received hi hm ht
  have hmessages := messages_of_step hp
  obtain ⟨r, most, timeout, point⟩ := c
  cases point with
  | looking deadline seen =>
    have hlength : messages.length = min most (s.broker.queue r.entity).length := by
      rw [hmessages, List.length_map, Call.transfer, Transfer.deliveries, length_lockAll,
        List.length_take]
    exact hlength ▸ .now rfl
  | parked deadline seen =>
    have hnil : messages = [] := hmessages
    exact hnil ▸ h.lastLook_parked hi rfl
  | delayed due => contradiction
  | _ =>
    simp only [Receive.step] at hp
    split at hp <;> cases hp

/-! ## Every run -/

/-- The deliveries of a run are counted, and each is under a token of its own. -/
structure Delivering (s : Traffic) (ds : List Lock) : Prop where
  /-- A copy that waits, is locked or is in the hands of a call says how often it was delivered. -/
  carried : ∀ e c, s.Has e c → c.message.deliveryCount = timesDelivered ds c.serial
  /-- A delivery says one more than there were before it. -/
  counted : ∀ m t, s.after m = some t → ∀ front d back, s.deliveries m = front ++ d :: back →
    d.copy.message.deliveryCount = timesDelivered (ds ++ front) d.copy.serial + 1
  /-- The bus counts in words of 32 bits, which is enough for a copy that is delivered less than
  2^32 times. -/
  inAWord : ∀ m t, s.after m = some t → ∀ d ∈ s.deliveries m,
    timesDelivered (ds ++ s.deliveries m) d.copy.serial < 2 ^ 32 →
      d.copy.message.deliveryCount < 2 ^ 32
  /-- No delivery before it had its token. -/
  fresh : ∀ m t, s.after m = some t → ∀ front d back, s.deliveries m = front ++ d :: back →
    ∀ k ∈ ds ++ front, k.copy.message.lockToken ≠ d.copy.message.lockToken
  /-- What is locked under its token is that delivery, with that message. -/
  stored : ∀ m t, s.after m = some t → ∀ d ∈ s.deliveries m,
    t.broker.locks.filter (·.token = d.copy.message.lockToken) = [d]
  /-- The messages that a receive ends with are what its last step delivers. -/
  batches : ∀ i began c t messages, s.calls[i]? = some ⟨began, .on (.receiving c)⟩ →
    s.after (.advance i) = some t →
      t.calls[i]? = some ⟨began, .done (.received (.ok messages))⟩ →
        messages = (s.deliveries (.advance i)).map (·.copy.message)
  /-- They are never more than it asks for, and as many as that or as there are. -/
  sized : ∀ i began c t messages, s.calls[i]? = some ⟨began, .on (.receiving c)⟩ →
    s.after (.advance i) = some t →
      t.calls[i]? = some ⟨began, .done (.received (.ok messages))⟩ →
        messages.length ≤ c.most ∧ s.LastLook i began c messages.length

theorem LastLook.le_most {s : Traffic} {i began n : Nat} {c : Receive}
    (h : s.LastLook i began c n) : n ≤ c.most := by
  cases h <;> exact Nat.min_le_left ..

/-- **Deliveries are counted**: in every run, a message that a receive returns says one more
than there were deliveries of its copy before, however those have ended; it is under a token
that no delivery had, and what is locked under it is that message.  A receive takes as many
messages as it asks for, or all there are. -/
theorem delivering_of_run {supply : Identifier.Supply} {moves : List Move} {s : Traffic}
    (h : run (start supply) moves = some s) :
    s.Delivering (deliveriesOver (start supply) moves) := by
  have hc : s.Counted (deliveriesOver (start supply) moves) := .of_run h
  have ht : s.Tracked (deliveriesOver (start supply) moves) := by
    rw [deliveriesOver_eq]
    exact keeps_of_run h (Tracked.start supply) fun _ _ _ _ ht hm => ht.step hm
  constructor
  case carried => exact hc.carried
  case counted => exact fun m t hm front d back hd => hc.deliveryCount_eq_of_split hm hd
  case inAWord =>
    exact fun m t hm d hd hfew => (hc.step hm).deliveryCount_lt (List.mem_append_right _ hd) hfew
  case fresh =>
    intro m t hm front d back hd k hk heq
    have ht' := ht.step hm
    rw [hd, ← List.append_assoc] at ht'
    have hmem : d ∈ (deliveriesOver (start supply) moves ++ front) ++ d :: back :=
      List.mem_append_right _ List.mem_cons_self
    rw [ht'.named k (List.mem_append_left _ hk), ht'.named d hmem] at heq
    have hdistinct := ht'.distinct
    rw [List.map_append, List.map_cons, List.nodup_append] at hdistinct
    exact hdistinct.2.2 _ (List.mem_map_of_mem hk) _ List.mem_cons_self heq
  case stored =>
    intro m t hm d hd
    rw [(ht.step hm).named d (List.mem_append_right _ hd)]
    exact filter_eq_singleton (ht.step hm).minted.distinct (mem_locks_of_mem_deliveries hm hd)
  case batches =>
    intro i began c t messages hi hm hr
    obtain ⟨-, -, hp⟩ := advance_of_received hi hm hr
    rw [deliveries_advance hi]
    exact messages_of_step hp
  case sized =>
    intro i began c t messages hi hm hr
    have hlook := hc.reachable.lastLook_of_received hi hm hr
    exact ⟨hlook.le_most, hlook⟩

/-- A message is received and abandoned, received again by a receiver that is closed then, and
received by another one. -/
def thriceDelivered : List Move := [
  .begin (.createReceiver "orders"), .advance 0, .advance 0,
  .begin (.createReceiver "orders"), .advance 1, .advance 1,
  .begin (.send "orders" [1] { messageId := some "a" }), .advance 2, .advance 2, .advance 2,
  .begin (.receive ⟨0, "orders"⟩ 5 .zero), .advance 3, .advance 3, .advance 3, .advance 3,
  .begin (.settle ⟨0, "orders"⟩ ⟨counting.nth 0⟩ .abandon),
  .advance 4, .advance 4, .advance 4, .advance 4,
  .begin (.receive ⟨0, "orders"⟩ 5 .zero), .advance 5, .advance 5, .advance 5, .advance 5,
  .begin (.close ⟨0, "orders"⟩), .advance 6, .advance 6, .advance 6,
  .begin (.receive ⟨1, "orders"⟩ 5 .zero), .advance 7, .advance 7, .advance 7, .advance 7]

theorem delivering_thriceDelivered : ∃ s, run {} thriceDelivered = some s ∧
    (deliveriesOver {} thriceDelivered).map (fun d =>
      (d.copy.serial, d.copy.message.deliveryCount, d.copy.message.lockToken)) =
      [(0, 1, ⟨counting.nth 0⟩), (0, 2, ⟨counting.nth 1⟩),
        (0, 3, ⟨counting.nth 2⟩)] ∧
    s.Delivering (deliveriesOver {} thriceDelivered) := by
  have hrun : (run {} thriceDelivered).any fun _ =>
      (deliveriesOver {} thriceDelivered).map (fun d =>
        (d.copy.serial, d.copy.message.deliveryCount, d.copy.message.lockToken)) =
        [(0, 1, ⟨counting.nth 0⟩), (0, 2, ⟨counting.nth 1⟩),
        (0, 3, ⟨counting.nth 2⟩)] := by
    decide
  obtain ⟨s, hs, hp⟩ := (Option.any_eq_true _ _).mp hrun
  exact ⟨s, hs, of_decide_eq_true hp, delivering_of_run hs⟩

end Traffic

end PeekLock.Broker
