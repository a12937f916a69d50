import PeekLock.Proofs.Broker.DeliveryCounts
import PeekLock.Proofs.Consumer.Dealings

/-!
# PeekLock.Proofs.Consumer.Acknowledgements

What the bus has on record is what the handler has returned.

Until a stop calls the close of the receiver, every return of the handler
has a record, or the settlement that was called for is about to make it.
So the two can be counted against each other, for each copy and in total;
a copy that the handler has taken is done with, and one that it has
refused goes back to its queue and is delivered again (`Accounting`).
-/

namespace PeekLock

/-! ## Copies in one place -/

namespace Broker.Traffic

/-- No copy is in two places, and none is in a place and completed. -/
theorem Ledger.balance_add_completions_le_one {s : Traffic} (h : s.Ledger) (e : String) (n : Nat) :
    s.balance e n + s.broker.completions n ≤ 1 := by
  obtain hzero | hpos := Nat.eq_zero_or_pos (s.balance e n)
  · obtain hnone | hsome := Nat.eq_zero_or_pos (s.broker.completions n)
    · omega
    · obtain ⟨c, hc, hn⟩ := List.countP_pos_iff.mp hsome
      obtain ⟨a, ha, hca⟩ := h.accounted c hc
      have hserial : a.copy.serial = n := hca.serial.symm.trans (of_decide_eq_true hn)
      have hone := h.balanced a ha
      rw [hserial] at hone
      omega
  · obtain ⟨c, hc, hn⟩ := has_of_balance_pos hpos
    obtain ⟨a, ha, he, hca⟩ := h.traced e c hc
    have hserial : a.copy.serial = n := hca.serial.symm.trans hn
    have hone := h.balanced a ha
    rw [he, hserial] at hone
    omega

theorem locked_pos_of_mem {s : Traffic} {l : Lock} (hl : l ∈ s.broker.locks) :
    0 < s.broker.locked l.entity l.copy.serial :=
  List.countP_pos_iff.mpr ⟨l, hl, by simp [Lock.isOn]⟩

/-- Two locks of one entity on one copy are one, and it is not in the hands of a call. -/
theorem Ledger.eq_of_locks {s : Traffic} (h : s.Ledger) {l k : Lock} (hl : l ∈ s.broker.locks)
    (hk : k ∈ s.broker.locks) (he : k.entity = l.entity) (hs : k.copy.serial = l.copy.serial) :
    l = k := by
  have hle := h.balance_add_completions_le_one l.entity l.copy.serial
  have hlocked : s.broker.locked l.entity l.copy.serial ≤ 1 := by
    unfold balance at hle
    omega
  exact eq_of_mem_of_countP_le_one hlocked hl (by simp [Lock.isOn]) hk (by simp [Lock.isOn, he, hs])

theorem Ledger.not_inHands_of_lock {s : Traffic} (h : s.Ledger) {l k : Lock}
    (hl : l ∈ s.broker.locks) (hk : k ∈ s.hands) (he : k.entity = l.entity) :
    k.copy.serial ≠ l.copy.serial := by
  intro hs
  have hle := h.balance_add_completions_le_one l.entity l.copy.serial
  have hlocked := locked_pos_of_mem hl
  have hheld : 0 < s.inHands l.entity l.copy.serial :=
    List.countP_pos_iff.mpr ⟨k, hk, by simp [Lock.isOn, he, hs]⟩
  unfold balance at hle
  omega

theorem Ledger.not_completed_of_lock {s : Traffic} (h : s.Ledger) {l : Lock} {c : Copy}
    (hl : l ∈ s.broker.locks) (hc : c ∈ s.broker.completed) : c.serial ≠ l.copy.serial := by
  intro hs
  have hle := h.balance_add_completions_le_one l.entity l.copy.serial
  have hlocked := locked_pos_of_mem hl
  have hdone : 0 < s.broker.completions l.copy.serial :=
    List.countP_pos_iff.mpr ⟨c, hc, by simp [hs]⟩
  unfold balance at hle
  omega

end Broker.Traffic

/-! ## Counting -/

/-- Whether a settlement is on its way, has such a verdict and token, and has not recorded
what became of its copy. -/
def Broker.Entry.owesRecord (v : Verdict) (p : LockToken → Bool) : Broker.Entry → Bool
  | ⟨_, .on (.settling c)⟩ => c.point ≠ .announcing && c.verdict = v && p c.token
  | _ => false

namespace Workshop

/-- The copy that was delivered under a token. -/
def serial? (s : Workshop) (token : LockToken) : Option Nat :=
  (s.deliveries.find? (·.token = token)).map (·.copy.serial)

/-- Whether a token was delivered with one of some copies. -/
def isOn (s : Workshop) (p : Nat → Bool) (token : LockToken) : Bool := (s.serial? token).any p

/-- How many calls of the handler, with one of some copies, returned well (a message that
is to be completed), or with an error (one that is to be abandoned). -/
def returned (s : Workshop) (v : Verdict) (p : Nat → Bool) : Nat :=
  s.returns.countP fun x => Worker.verdictOn x.2 = v && s.isOn p x.1.lockToken

/-- How many times one of some copies was recorded as completed, or as abandoned. -/
def recorded (s : Workshop) (v : Verdict) (p : Nat → Bool) : Nat :=
  match v with
  | .complete => s.traffic.broker.completed.countP fun c => p c.serial
  | .abandon => s.traffic.broker.abandoned.countP fun c => p c.serial

/-- How many settlements of some copies have not recorded theirs yet. -/
def unrecorded (s : Workshop) (v : Verdict) (p : Nat → Bool) : Nat :=
  s.traffic.calls.countP (Broker.Entry.owesRecord v (s.isOn p))

variable {settings : ConsumerSettings} {s t : Workshop}

theorem serial?_of_mem (h : s.traffic.Tracked s.deliveries) {l : Lock} (hl : l ∈ s.deliveries) :
    s.serial? l.token = some l.copy.serial := by
  have hsome : (s.deliveries.find? (·.token = l.token)).isSome = true := by
    rw [List.find?_isSome]
    exact ⟨l, hl, by simp⟩
  obtain ⟨k, hk⟩ := Option.isSome_iff_exists.mp hsome
  have heq : k = l :=
    h.eq_of_token (List.mem_of_find?_eq_some hk) hl (by simpa using List.find?_some hk)
  rw [serial?, hk, Option.map_some, heq]

theorem isOn_of_copy (h : s.traffic.Tracked s.deliveries) {l : Lock} {c : Copy}
    (hl : l ∈ s.deliveries) (hc : l.copy = c) (p : Nat → Bool) :
    s.isOn p c.message.lockToken = p c.serial := by
  subst hc
  rw [isOn, h.named l hl, serial?_of_mem h hl, Option.any_some]

/-- The records are those of the copies. -/
theorem countP_records (h : s.traffic.Tracked s.deliveries) (v : Verdict) (p : Nat → Bool) :
    s.traffic.broker.records.countP (fun x => x.2 = v && s.isOn p x.1) = s.recorded v p := by
  have hcompleted : s.traffic.broker.completed.countP (fun c => s.isOn p c.message.lockToken) =
      s.traffic.broker.completed.countP fun c => p c.serial := by
    refine List.countP_congr fun c hc => ?_
    obtain ⟨l, hl, hlc⟩ := h.completed c hc
    rw [isOn_of_copy h hl hlc]
  have habandoned : s.traffic.broker.abandoned.countP (fun c => s.isOn p c.message.lockToken) =
      s.traffic.broker.abandoned.countP fun c => p c.serial := by
    refine List.countP_congr fun c hc => ?_
    obtain ⟨l, hl, hlc⟩ := h.abandoned c hc
    rw [isOn_of_copy h hl hlc]
  rw [Broker.records, List.countP_append, List.countP_map, List.countP_map]
  cases v with
  | complete => simpa [Function.comp_def, recorded] using hcompleted
  | abandon => simpa [Function.comp_def, recorded] using habandoned

theorem countP_unrecorded (s : Workshop) (v : Verdict) (p : Nat → Bool) :
    (s.traffic.calls.flatMap Broker.Entry.unrecorded).countP (fun x => x.2 = v && s.isOn p x.1) =
      s.unrecorded v p := by
  refine countP_flatMap (fun x => ?_) _
  obtain ⟨began, progress⟩ := x
  cases progress with
  | done o => rfl
  | on c =>
    cases c with
    | settling c =>
      simp only [Broker.Entry.unrecorded, Broker.Entry.owesRecord]
      by_cases hp : c.point = .announcing <;> simp [hp, List.countP_cons]
    | _ => rfl

/-! ## The accounts -/

/-- The accounts of a workshop. -/
structure Accounting (s : Workshop) : Prop where
  /-- What the handler has returned is on record, or a settlement on its way is about to
  record it: for one copy (`p n = true` for its number only), and for all of them. -/
  balanced : ∀ v p, s.returned v p = s.recorded v p + s.unrecorded v p
  /-- Every message that the handler has returned for is one of a delivery. -/
  traced : ∀ x ∈ s.returns, ∃ l ∈ s.deliveries, l.copy.message = x.1 ∧ l.token = x.1.lockToken ∧
    s.serial? x.1.lockToken = some l.copy.serial
  /-- No copy is completed twice. -/
  once : ∀ n, s.recorded .complete (· = n) ≤ 1
  /-- A copy that the handler has taken is not before any worker again. -/
  forGood : ∀ m, (m, .ok ()) ∈ s.returns → ∀ t, s.Leads t → t.closing = none →
    ∀ p ∈ t.posts, ∀ m' ∈ p.unhandled, t.serial? m'.lockToken ≠ t.serial? m.lockToken
  /-- A copy that the handler has refused is back in its queue once the settlement has
  recorded that, or it was delivered again, and counts one delivery more. -/
  again : ∀ m e, (m, .error e) ∈ s.returns →
    (∀ x ∈ s.traffic.calls, x.owesRecord .abandon (· = m.lockToken) = false) →
    ∃ l ∈ s.deliveries, l.copy.message = m ∧ (l.copy ∈ s.traffic.broker.queue l.entity ∨
      ∃ k ∈ s.deliveries, k.entity = l.entity ∧ k.copy.serial = l.copy.serial ∧
        k.copy.message.deliveryCount = m.deliveryCount + 1)
  /-- The bus counts in words of 32 bits, which is enough for a copy that was delivered less than
  2^32 times, before the consumer was built and since. -/
  inAWord : ∀ settings (first : Workshop) supply (history : List Broker.Move),
    first.Opens settings → first.Leads s →
      Broker.Traffic.run (.start supply) history = some first.traffic → ∀ l ∈ s.deliveries,
        Broker.timesDelivered
          (Broker.Traffic.deliveriesOver (.start supply) history ++ s.deliveries)
          l.copy.serial < 2 ^ 32 → l.copy.message.deliveryCount < 2 ^ 32

/-- A message that the handler has returned for is one of a delivery. -/
theorem Dealt.delivery_of_return (h : s.Dealt) {x : Message × Except String Unit}
    (hx : x ∈ s.returns) : ∃ l ∈ s.deliveries, l.copy.message = x.1 :=
  List.mem_map.mp (h.dealt.mem_iff.mpr (List.mem_append_left _ (List.mem_map_of_mem hx)))

/-- A settlement that has not recorded what became of its copy. -/
theorem mem_unrecorded {x : Broker.Entry} {y : LockToken × Verdict} (h : y ∈ x.unrecorded) :
    ∃ began c, x = ⟨began, .on (.settling c)⟩ ∧ c.point ≠ .announcing ∧
      y = (c.token, c.verdict) := by
  unfold Broker.Entry.unrecorded at h
  split at h
  · next began c =>
    split at h
    · contradiction
    · next hne => exact ⟨began, c, rfl, hne, List.mem_singleton.mp h⟩
  · contradiction

/-- A settlement that has a lock in its hands. -/
theorem recording_of_held? {x : Broker.Entry} {l : Lock} (h : x.held? = some l) :
    ∃ began c, x = ⟨began, .on (.settling c)⟩ ∧ c.point = .recording l := by
  obtain ⟨began, progress⟩ := x
  cases progress with
  | done o => contradiction
  | on c =>
    cases c with
    | settling c =>
      obtain ⟨_, _, _, point⟩ := c
      cases point with
      | recording k =>
        cases h
        exact ⟨began, _, rfl, rfl⟩
      | _ => contradiction
    | _ => contradiction

namespace InService

/-- What the handler has returned is on record, or it is going to be. -/
theorem balanced (h : s.InService) (hp : s.Parts settings) (hd : s.Dealt) (v : Verdict)
    (p : Nat → Bool) : s.returned v p = s.recorded v p + s.unrecorded v p := by
  have hcount := h.records.countP_eq fun x => x.2 = v && s.isOn p x.1
  rw [List.countP_append, countP_records hp.tracked, countP_unrecorded, hd.settled,
    List.countP_map] at hcount
  exact hcount

/-- A message that is before a worker is locked. -/
theorem lock_of_unhandled (h : s.InService) {m : Message} (hm : m ∈ s.unhandled) :
    ∃ l ∈ s.traffic.broker.locks, l.token = m.lockToken := by
  have htoken := h.locks.mem_iff.mpr (List.mem_append_left _ (List.mem_map_of_mem hm))
  exact List.mem_map.mp htoken

/-- A message that is before a worker is not being settled. -/
theorem ne_of_unreleased (h : s.InService) (hp : s.Parts settings) {m : Message}
    (hm : m ∈ s.unhandled) {token : LockToken}
    (ht : token ∈ s.traffic.calls.flatMap Broker.Entry.unreleased) : m.lockToken ≠ token := by
  have hnodup := h.locks.nodup_iff.mp hp.tracked.minted.distinct
  rw [List.nodup_append] at hnodup
  exact hnodup.2.2 _ (List.mem_map_of_mem hm) _ ht

/-- Where the copy of a settlement is that has not recorded what became of it: under its
lock, or in the hands of the call. -/
theorem lock_of_unrecorded (h : s.InService) (hp : s.Parts settings) {began : Nat}
    {c : Broker.Settle} (hc : ⟨began, .on (.settling c)⟩ ∈ s.traffic.calls)
    (hne : c.point ≠ .announcing) :
    (∃ l ∈ s.traffic.broker.locks, l.token = c.token ∧
      c.token ∈ s.traffic.calls.flatMap Broker.Entry.unreleased) ∨
    ∃ l ∈ s.traffic.hands, l.token = c.token := by
  cases hr : c.point.hasReleased with
  | false =>
    have howed : c.token ∈ s.traffic.calls.flatMap Broker.Entry.unreleased :=
      List.mem_flatMap.mpr ⟨_, hc, by simp [Broker.Entry.unreleased, hr]⟩
    obtain ⟨l, hl, ht⟩ := List.mem_map.mp (h.locks.mem_iff.mpr (List.mem_append_right _ howed))
    exact .inl ⟨l, hl, ht, howed⟩
  | true =>
    obtain ⟨i, hi⟩ := List.mem_iff_getElem?.mp hc
    obtain ⟨l, hpoint⟩ : ∃ l, c.point = .recording l := by
      cases hp : c.point with
      | recording l => exact ⟨l, rfl⟩
      | announcing => exact (hne hp).elim
      | _ => rw [hp] at hr; contradiction
    refine .inr ⟨l, Broker.Traffic.mem_hands hi ?_, hp.traffic.token_of_recording hi hpoint⟩
    obtain ⟨_, _, _, point⟩ := c
    cases hpoint
    rfl

/-- A copy that the handler has taken is completed, or its settlement has it; either way
no worker has it before it. -/
theorem serial?_ne_of_taken (h : s.InService) (hp : s.Parts settings) (hd : s.Dealt)
    {m m' : Message} (hm : (m, .ok ()) ∈ s.returns) (hm' : m' ∈ s.unhandled) :
    s.serial? m'.lockToken ≠ s.serial? m.lockToken := by
  have hledger := hp.traffic.ledger
  obtain ⟨l', hl', ht'⟩ := h.lock_of_unhandled hm'
  have hds' := hp.tracked.locks l' hl'
  have hserial {l : Lock} (hl : l ∈ s.deliveries) (ht : l.token = m.lockToken)
      (hne : l.copy.serial ≠ l'.copy.serial) :
      s.serial? m'.lockToken ≠ s.serial? m.lockToken := by
    rw [← ht', ← ht, serial?_of_mem hp.tracked hds', serial?_of_mem hp.tracked hl]
    exact fun heq => hne (Option.some.inj heq).symm
  have hasked : (m.lockToken, Verdict.complete) ∈ s.settlements := by
    rw [hd.settled]
    exact List.mem_map.mpr ⟨_, hm, rfl⟩
  obtain hrecorded | howed := List.mem_append.mp (h.records.mem_iff.mp hasked)
  · obtain hc | hc := List.mem_append.mp hrecorded
    · obtain ⟨c, hc, heq⟩ := List.mem_map.mp hc
      obtain ⟨l, hl, rfl⟩ := hp.tracked.completed c hc
      have htoken : l.token = m.lockToken :=
        (hp.tracked.named l hl).symm.trans (congrArg Prod.fst heq)
      exact hserial hl htoken (hledger.not_completed_of_lock hl' hc)
    · obtain ⟨c, -, heq⟩ := List.mem_map.mp hc
      have hverdict := congrArg Prod.snd heq
      contradiction
  · obtain ⟨x, hx, howed⟩ := List.mem_flatMap.mp howed
    obtain ⟨began, c, rfl, hpoint, heq⟩ := mem_unrecorded howed
    have htoken : m.lockToken = c.token := congrArg Prod.fst heq
    obtain ⟨l, hl, ht, howed⟩ | ⟨l, hl, ht⟩ := h.lock_of_unrecorded hp hx hpoint
    · have hds := hp.tracked.locks l hl
      refine hserial hds (ht.trans htoken.symm) fun hsame => ?_
      have hll : l' = l := hledger.eq_of_locks hl' hl
        ((hd.own l hds).2.trans (hd.own l' hds').2.symm) hsame
      refine h.ne_of_unreleased hp hm' howed ?_
      rw [← ht', hll, ht]
    · have hds := hp.tracked.hands l hl
      exact hserial hds (ht.trans htoken.symm) (hledger.not_inHands_of_lock hl' hl
        ((hd.own l hds).2.trans (hd.own l' hds').2.symm))

/-- A copy that the handler has refused goes back to its queue. -/
theorem refused (h : s.InService) (hp : s.Parts settings) (hd : s.Dealt) {m : Message}
    {e : String} (hm : (m, .error e) ∈ s.returns)
    (hdone : ∀ x ∈ s.traffic.calls, x.owesRecord .abandon (· = m.lockToken) = false) :
    ∃ l ∈ s.deliveries, l.copy.message = m ∧ (l.copy ∈ s.traffic.broker.queue l.entity ∨
      ∃ k ∈ s.deliveries, k.entity = l.entity ∧ k.copy.serial = l.copy.serial ∧
        k.copy.message.deliveryCount = m.deliveryCount + 1) := by
  obtain ⟨l, hl, (hlm : l.copy.message = m)⟩ := hd.delivery_of_return hm
  have htoken : l.token = m.lockToken := (hp.tracked.named l hl).symm.trans (congrArg _ hlm)
  have hnodup := (hd.tokens hp.tracked).nodup_iff.mp hp.tracked.distinct
  rw [List.nodup_append] at hnodup
  -- every settlement under the token is this one
  have hsame {r : Except String Unit} {m' : Message} (hr : (m', r) ∈ s.returns)
      (ht : m'.lockToken = m.lockToken) : r = .error e :=
    congrArg Prod.snd (List.inj_on_of_nodup_map hnodup.1 hr hm ht)
  have hverdict {v : Verdict} (hv : (m.lockToken, v) ∈ s.settlements) : v = .abandon := by
    rw [hd.settled] at hv
    obtain ⟨⟨m', r⟩, hr, heq⟩ := List.mem_map.mp hv
    have hre := hsame hr (congrArg Prod.fst heq)
    subst hre
    exact (congrArg Prod.snd heq).symm
  have hnone {began : Nat} {c : Broker.Settle}
      (hc : ⟨began, .on (.settling c)⟩ ∈ s.traffic.calls) (ht : c.token = m.lockToken) :
      c.point = .announcing := by
    refine Classical.byContradiction fun hne => ?_
    have howed : (c.token, c.verdict) ∈ s.traffic.calls.flatMap Broker.Entry.unrecorded :=
      List.mem_flatMap.mpr ⟨_, hc, by simp [Broker.Entry.unrecorded, hne]⟩
    have hv := hverdict (ht ▸ h.records.mem_iff.mpr (List.mem_append_right _ howed))
    have hfalse := hdone _ hc
    simp [Broker.Entry.owesRecord, hne, hv, ht] at hfalse
  refine ⟨l, hl, hlm, ?_⟩
  cases hp.tracked.fate l hl with
  | locked hlocked =>
    have hdue := h.locks.mem_iff.mp (List.mem_map_of_mem (f := (·.token)) hlocked)
    obtain hdue | hdue := List.mem_append.mp hdue
    · rw [htoken] at hdue
      exact (hnodup.2.2 _ (List.mem_map_of_mem hm) _ hdue rfl).elim
    · obtain ⟨x, hx, howed⟩ := List.mem_flatMap.mp hdue
      obtain ⟨began, c, rfl, hreleased, ht⟩ := Broker.mem_unreleased howed
      rw [hnone hx (ht.symm.trans htoken)] at hreleased
      contradiction
  | inHands hheld =>
    obtain ⟨x, hx, hheld⟩ := List.mem_filterMap.mp hheld
    obtain ⟨i, hi⟩ := List.mem_iff_getElem?.mp hx
    obtain ⟨began, c, rfl, hpoint⟩ := recording_of_held? hheld
    have ht := hp.traffic.token_of_recording hi hpoint
    rw [hnone hx (ht.symm.trans htoken)] at hpoint
    contradiction
  | completed hc =>
    have hrecord : (m.lockToken, Verdict.complete) ∈ s.traffic.broker.records :=
      List.mem_append_left _ (List.mem_map.mpr ⟨_, hc, by rw [hlm]⟩)
    have hv := hverdict (h.records.mem_iff.mpr (List.mem_append_left _ hrecord))
    contradiction
  | waiting hq => exact .inl hq
  | again k hk he hc =>
    refine .inr ⟨k, hk, he, ?_, ?_⟩
    · rw [hc]
      rfl
    · rw [hc, ← hlm]
      rfl

end InService

/-! ## In every workshop -/

/-- What the handler has returned it has returned for good. -/
theorem Turn.returns (ht : Turn s t) : s.returns ⊆ t.returns := by
  obtain ⟨-, hr, -, -⟩ | ⟨locks, -, hr, -, -⟩ | ⟨m, result, -, hr, -, -⟩ := ht.dealing
  · exact hr ▸ List.Subset.refl _
  · exact hr ▸ List.Subset.refl _
  · exact hr ▸ List.subset_append_left _ _

theorem Reachable.returns_subset (h : s.Reachable settings) (hl : s.Leads t) :
    s.returns ⊆ t.returns := by
  induction hl with
  | refl => exact List.Subset.refl _
  | step hs hm ih =>
    exact List.Subset.trans ih (turn_of_after (h.leads hs).parts.tended hm).returns

/-- The bus goes on counting from where it was when the consumer was built. -/
theorem Opens.counted (h : s.Opens settings) (hl : s.Leads t) {ds : List Lock}
    (hds : s.traffic.Counted ds) : t.traffic.Counted (ds ++ t.deliveries) := by
  induction hl with
  | refl =>
    rw [h.deliveries, List.append_nil]
    exact hds
  | @step t u m hl hm ih =>
    have hp : t.Parts settings := Reachable.parts ⟨s, h, hl⟩
    obtain ⟨htr, hd⟩ | ⟨m, hm, hd⟩ := (turn_of_after hp.tended hm).traffic hp.receiver
    · rw [htr, hd]
      exact ih
    · rw [hd, ← List.append_assoc]
      exact ih.step hm

/-- **Acknowledgement accounting**: whatever is sent, whichever receives fail, however the
workers take turns and whatever the handler returns, until the close of the receiver is
called every return of the handler is on record or about to be, a message that it has
taken is done with, and one that it has refused is delivered again. -/
theorem Reachable.accounting (h : s.Reachable settings) (hc : s.closing = none) :
    s.Accounting where
  balanced := (h.inService hc).balanced h.parts h.dealt
  traced x hx := by
    obtain ⟨l, hl, hm⟩ := h.dealt.delivery_of_return hx
    have ht : l.token = x.1.lockToken :=
      (h.parts.tracked.named l hl).symm.trans (congrArg _ hm)
    exact ⟨l, hl, hm, ht, ht ▸ serial?_of_mem h.parts.tracked hl⟩
  once n := by
    have hle := h.parts.traffic.ledger.balance_add_completions_le_one "" n
    show s.traffic.broker.completions n ≤ 1
    omega
  forGood m hm t hl htc p hpost m' hm' := by
    have ht := h.leads hl
    exact (ht.inService htc).serial?_ne_of_taken ht.parts ht.dealt
      (h.returns_subset hl hm) (List.mem_flatMap.mpr ⟨p, hpost, hm'⟩)
  again m e hm hdone := (h.inService hc).refused h.parts h.dealt hm hdone
  inAWord settings first supply history hopens hl hrun l hl' hfew :=
    (hopens.counted hl (.of_run hrun)).deliveryCount_lt (List.mem_append_right _ hl') hfew

/-- Two messages are received, between faults of receives; the handler takes the first one
and refuses the second one, which is received again. -/
def oneRefused : List Move := [
  .ask (.sendBatch "orders" [[1], [2]] {}),
  .carry 1, .carry 1, .carry 1, .carry 1, .carry 1,
  .ask (.setFaults { timeouts := 1 }), .carry 2,
  .request (.start "main"), .proceed 0, .proceed 0, .proceed 0,
  .work 0, .work 0, .work 0, .work 0,
  .work 0, .work 0, .work 0, .work 0, .work 0,
  .handle 0 (.ok ()), .work 0, .work 0, .work 0,
  .handle 0 (.error "broken"), .work 0, .work 0, .work 0, .work 0,
  .work 0, .work 0, .work 0, .work 0, .work 0]

theorem accounting_oneRefused : ∃ s, atTheQueue.run oneRefused = some s ∧ s.closing = none ∧
    s.returns.map (·.1.body) = [[1], [2]] ∧
    s.returned .complete (· = 0) = 1 ∧ s.recorded .complete (· = 0) = 1 ∧
    s.returned .abandon (· = 1) = 1 ∧ s.recorded .abandon (· = 1) = 1 ∧
    s.deliveries.map (·.copy.message.deliveryCount) = [1, 1, 2] ∧
    s.Accounting := by
  have hrun : (atTheQueue.run oneRefused).any fun s => s.closing = none ∧
      s.returns.map (·.1.body) = [[1], [2]] ∧
      s.returned .complete (· = 0) = 1 ∧ s.recorded .complete (· = 0) = 1 ∧
      s.returned .abandon (· = 1) = 1 ∧ s.recorded .abandon (· = 1) = 1 ∧
      s.deliveries.map (·.copy.message.deliveryCount) = [1, 1, 2] := by
    decide
  obtain ⟨s, hs, hp⟩ := (Option.any_eq_true _ _).mp hrun
  obtain ⟨hc, hbodies, hok, hcompleted, herr, habandoned, hcounts⟩ := of_decide_eq_true hp
  exact ⟨s, hs, hc, hbodies, hok, hcompleted, herr, habandoned, hcounts,
    Reachable.accounting ⟨atTheQueue, opens_atTheQueue, leads_of_run hs⟩ hc⟩

end Workshop

end PeekLock
