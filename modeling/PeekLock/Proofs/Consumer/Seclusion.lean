import Mathlib.Algebra.Order.BigOperators.Group.List
import Mathlib.Algebra.Order.Group.Nat
import PeekLock.Proofs.Broker.FirstHand
import PeekLock.Proofs.Consumer.Acknowledgements

/-!
# PeekLock.Proofs.Consumer.Seclusion

A consumer that takes everything, on a bus that nobody else uses.

Where nothing is asked from outside, the calls on the bus are those of the
workers and of the stop (`IsInner`).  If moreover the handler takes every
message, all that happens to a copy is that it is delivered and completed,
or that it is stranded for good by the close of the receiver.  So once
nothing waits and nothing is under way, every copy has been completed, and
the handler has taken each of them once, on its first delivery
(`Exhausted`).
-/

namespace PeekLock

namespace Broker

/-- Whether a call is one of a consumer. -/
def Call.isInner : Call → Bool
  | .receiving _ => true
  | .settling _ => true
  | .closing _ => true
  | _ => false

theorem Call.isInner_step {now : Nat} {b : Broker} {c c' : Call} (h : c.isInner = true)
    (hp : (c.step now b).progress = .on c') : c'.isInner = true := by
  cases c with
  | receiving | settling | closing =>
    obtain ⟨k, -, rfl⟩ := Progress.map_eq_on hp
    rfl
  | _ => contradiction

namespace Traffic

/-- The calls on their way are those of a consumer. -/
def IsInner (s : Traffic) : Prop :=
  ∀ (i began : Nat) (c : Call), s.calls[i]? = some ⟨began, .on c⟩ → c.isInner = true

theorem IsInner.accept {s : Traffic} (h : s.IsInner) {q : Request} (hq : q.call.isInner = true) :
    (s.accept q).IsInner := fun i began c hi => by
  obtain hi | ⟨-, rfl⟩ := call_of_accept hi
  · exact h i began c hi
  · exact hq

theorem IsInner.after {s t : Traffic} {m : Move} (h : s.IsInner) (hm : s.after m = some t)
    (hq : ∀ q, m ≠ .begin q) : t.IsInner := by
  obtain ⟨q, rfl, -, rfl⟩ | ⟨i, began, c, -, hi, -, rfl⟩ | ⟨i, began, c, -, hi, rfl⟩ |
    ⟨ms, -, rfl⟩ | ⟨locks, -, -, rfl⟩ := after_cases hm
  · exact absurd rfl (hq q)
  · intro j began' k hj
    obtain ⟨-, hj⟩ | ⟨-, -, hp⟩ := call_of_advance hi hj
    · exact h j began' k hj
    · exact Call.isInner_step (h i began c hi) hp
  · exact fun j began' k hj => h j began' k (call_of_dropReceive hi hj)
  · exact h
  · exact h

/-- The id that the copy of that number has arrived with. -/
def idOf (s : Traffic) (n : Nat) : String :=
  ((s.arrivals.find? (·.copy.serial = n)).map (·.copy.message.id)).getD ""

/-- A copy that has arrived is found by its number. -/
theorem Ledger.idOf_serial {s : Traffic} (h : s.Ledger) {a : Placement} (ha : a ∈ s.arrivals) :
    s.idOf a.copy.serial = a.copy.message.id := by
  have hsome : (s.arrivals.find? (·.copy.serial = a.copy.serial)).isSome = true :=
    List.find?_isSome.mpr ⟨a, ha, decide_eq_true rfl⟩
  obtain ⟨a', ha'⟩ := Option.isSome_iff_exists.mp hsome
  have hsame : a' = a :=
    h.eq_of_serial (List.mem_of_find?_eq_some ha') ha (by simpa using List.find?_some ha')
  rw [idOf, ha', hsame]
  rfl

/-- Copies that stand for the arrivals, one for each, have their ids. -/
theorem Ledger.perm_ids {s : Traffic} (h : s.Ledger) {copies : List Copy}
    (hn : (copies.map (·.serial)).Nodup)
    (hin : ∀ c ∈ copies, ∃ a ∈ s.arrivals, c.Continues a.copy)
    (hall : ∀ a ∈ s.arrivals, ∃ c ∈ copies, c.serial = a.copy.serial) :
    (copies.map (·.message.id)).Perm (s.arrivals.map (·.copy.message.id)) := by
  have hserials : (copies.map (·.serial)).Perm (s.arrivals.map (·.copy.serial)) := by
    refine (List.perm_ext_iff_of_nodup hn (h.numbered ▸ List.nodup_range)).mpr fun n => ?_
    constructor
    · intro hm
      obtain ⟨c, hc, rfl⟩ := List.mem_map.mp hm
      obtain ⟨a, ha, hca⟩ := hin c hc
      exact List.mem_map.mpr ⟨a, ha, hca.serial.symm⟩
    · intro hm
      obtain ⟨a, ha, rfl⟩ := List.mem_map.mp hm
      obtain ⟨c, hc, hs⟩ := hall a ha
      exact List.mem_map.mpr ⟨c, hc, hs⟩
  have hcopies : copies.map (·.message.id) = (copies.map (·.serial)).map s.idOf := by
    rw [List.map_map]
    refine List.map_congr_left fun c hc => ?_
    obtain ⟨a, ha, hca⟩ := hin c hc
    rw [Function.comp_apply, hca.serial, h.idOf_serial ha, hca.content.id]
  have harrivals : s.arrivals.map (·.copy.message.id) =
      (s.arrivals.map (·.copy.serial)).map s.idOf := by
    rw [List.map_map]
    exact List.map_congr_left fun a ha => (h.idOf_serial ha).symm
  rw [hcopies, harrivals]
  exact hserials.map s.idOf

/-- No copy is completed twice. -/
theorem Ledger.nodup_completed {s : Traffic} (h : s.Ledger) :
    (s.broker.completed.map (·.serial)).Nodup := by
  refine List.nodup_iff_count_le_one.mpr fun n => ?_
  have hle := h.balance_add_completions_le_one "" n
  have hcount : (s.broker.completed.map (·.serial)).count n = s.broker.completions n := by
    rw [List.count, List.countP_map, completions]
    rfl
  omega

/-- No copy is twice in a queue. -/
theorem Ledger.nodup_queue {s : Traffic} (h : s.Ledger) (e : String) :
    ((s.broker.queue e).map (·.serial)).Nodup := by
  refine List.nodup_iff_count_le_one.mpr fun n => ?_
  have hle := h.balance_add_completions_le_one e n
  have hcount : ((s.broker.queue e).map (·.serial)).count n = s.broker.waiting e n := by
    rw [List.count, List.countP_map, waiting]
    rfl
  unfold balance at hle
  omega

/-- All there is waits in an entity. -/
structure Stocked (s : Traffic) (e : String) : Prop where
  elsewhere : ∀ e' ≠ e, s.broker.queue e' = []
  locks : s.broker.locks = []
  hands : s.hands = []
  completed : s.broker.completed = []

/-- What has arrived waits. -/
theorem Stocked.exists_waiting {s : Traffic} {e : String} (h : s.Stocked e) (hs : s.Ledger)
    {a : Placement} (ha : a ∈ s.arrivals) :
    a.entity = e ∧ ∃ c ∈ s.broker.queue e, c.Continues a.copy := by
  have hone := hs.balanced a ha
  have hzero : s.broker.completions a.copy.serial = 0 := by
    rw [completions, h.completed]
    rfl
  have hpos : 0 < s.balance a.entity a.copy.serial := by omega
  obtain ⟨c, hc, hserial⟩ := has_of_balance_pos hpos
  obtain ⟨a', ha', -, hca⟩ := hs.traced a.entity c hc
  have hsame : a' = a := hs.eq_of_serial ha' ha (hca.serial.symm.trans hserial)
  subst hsame
  cases hc with
  | waiting hq =>
    by_cases he : a'.entity = e
    · exact ⟨he, c, he ▸ hq, hca⟩
    · rw [h.elsewhere _ he] at hq
      contradiction
  | locked l hl =>
    rw [h.locks] at hl
    contradiction
  | inHands l hl =>
    rw [h.hands] at hl
    contradiction

/-- What waits has the ids of what has arrived. -/
theorem Stocked.perm_ids {s : Traffic} {e : String} (h : s.Stocked e) (hs : s.Ledger) :
    ((s.broker.queue e).map (·.message.id)).Perm (s.arrivals.map (·.copy.message.id)) := by
  refine hs.perm_ids (hs.nodup_queue e) (fun c hc => ?_) fun a ha => ?_
  · obtain ⟨a, ha, -, hca⟩ := hs.traced e c (.waiting hc)
    exact ⟨a, ha, hca⟩
  · obtain ⟨-, c, hc, hca⟩ := h.exists_waiting hs ha
    exact ⟨c, hc, hca.serial⟩

/-- Nothing waits in an entity, nothing is locked, and nothing is being settled. -/
structure Exhausted (s : Traffic) (e : String) : Prop where
  queue : s.broker.queue e = []
  locks : s.broker.locks = []
  hands : s.hands = []

/-- What has arrived in an exhausted entity is completed. -/
theorem Exhausted.exists_completed {s : Traffic} {e : String} (h : s.Exhausted e) (hs : s.Ledger)
    {a : Placement} (ha : a ∈ s.arrivals) (he : a.entity = e) :
    ∃ c ∈ s.broker.completed, c.serial = a.copy.serial := by
  have hone := hs.balanced a ha
  have hzero : s.balance a.entity a.copy.serial = 0 := by
    rw [balance, waiting, locked, inHands, he, h.queue, h.locks, h.hands]
    rfl
  have hpos : 0 < s.broker.completions a.copy.serial := by omega
  obtain ⟨c, hc, hn⟩ := List.countP_pos_iff.mp hpos
  exact ⟨c, hc, of_decide_eq_true hn⟩

/-- Where everything has arrived in an exhausted entity, all of it is completed. -/
theorem Exhausted.perm_completedIds {s : Traffic} {e : String} (h : s.Exhausted e)
    (hs : s.Reachable) (he : ∀ a ∈ s.arrivals, a.entity = e) :
    s.broker.completedIds.Perm (s.arrivals.map (·.copy.message.id)) :=
  hs.ledger.perm_ids hs.ledger.nodup_completed hs.ledger.accounted fun _ ha =>
    h.exists_completed hs.ledger ha (he _ ha)

section

variable {s : Traffic} {e : String} {ds : List Lock} (h : s.Exhausted e) (ht : s.Tracked ds)
  (he : ∀ l ∈ ds, l.entity = e)

include h ht he

/-- What was delivered from an exhausted entity is completed, or was delivered again. -/
theorem Exhausted.completed_or_again {l : Lock} (hl : l ∈ ds) :
    l.copy ∈ s.broker.completed ∨
      ∃ k ∈ ds, k.copy.message.deliveryCount = l.copy.message.deliveryCount + 1 := by
  cases ht.fate l hl with
  | locked hlocked =>
    rw [h.locks] at hlocked
    contradiction
  | inHands hheld =>
    rw [h.hands] at hheld
    contradiction
  | completed hdone => exact .inl hdone
  | waiting hq =>
    rw [he l hl, h.queue] at hq
    contradiction
  | again k hk _ hcopy => exact .inr ⟨k, hk, by rw [hcopy]; rfl⟩

/-- Where only first deliveries are completed, there is no other: after one that is not the first
the copy was delivered again, and again, without end. -/
theorem Exhausted.deliveryCount_le_one
    (hc : ∀ c ∈ s.broker.completed, c.message.deliveryCount = 1) {l : Lock} (hl : l ∈ ds) :
    l.copy.message.deliveryCount ≤ 1 := by
  obtain ⟨most, hmost⟩ : ∃ most, ∀ k ∈ ds, k.copy.message.deliveryCount ≤ most :=
    ⟨(ds.map (·.copy.message.deliveryCount)).sum, fun k hk =>
      List.le_sum_of_mem (List.mem_map_of_mem hk)⟩
  by_contra hagain
  have hnext {k : Lock} (hk : k ∈ ds) (hk' : 1 < k.copy.message.deliveryCount) :
      ∃ k' ∈ ds, k'.copy.message.deliveryCount = k.copy.message.deliveryCount + 1 :=
    (h.completed_or_again ht he hk).resolve_left fun hdone => by
      have := hc _ hdone
      omega
  have hascent (n : Nat) : ∃ k ∈ ds, l.copy.message.deliveryCount + n =
      k.copy.message.deliveryCount := by
    induction n with
    | zero => exact ⟨l, hl, rfl⟩
    | succ n ih =>
      obtain ⟨k, hk, hcount⟩ := ih
      obtain ⟨k', hk', hcount'⟩ := hnext hk (by omega)
      exact ⟨k', hk', by omega⟩
  obtain ⟨k, hk, hcount⟩ := hascent (most + 1)
  have := hmost k hk
  omega

/-- Where only first deliveries are completed, every delivery is. -/
theorem Exhausted.completed_of_delivery (hpos : ∀ l ∈ ds, 0 < l.copy.message.deliveryCount)
    (hc : ∀ c ∈ s.broker.completed, c.message.deliveryCount = 1) {l : Lock} (hl : l ∈ ds) :
    l.copy ∈ s.broker.completed := by
  refine (h.completed_or_again ht he hl).resolve_right fun ⟨k, hk, hnext⟩ => ?_
  have hone := h.deliveryCount_le_one ht he hc hk
  have hfirst := hpos l hl
  omega

end

end Traffic

/-- What is delivered was delivered at least once. -/
theorem Transfer.deliveryCount_pos_of_mem_deliveries {b : Broker} {t : Transfer} {l : Lock}
    (h : l ∈ t.deliveries b) : 0 < l.copy.message.deliveryCount := by
  cases t with
  | take r most =>
    obtain ⟨-, -, c, -, hc⟩ := mem_lockAll h
    rw [hc]
    exact Nat.succ_pos _
  | _ => contradiction

end Broker

namespace Workshop

variable {settings : ConsumerSettings} {s t : Workshop}

/-! ## Moves of the consumer itself -/

/-- From one state to the other, only the consumer has made calls, and the handler has not
returned. -/
structure Secluded (s t : Workshop) : Prop where
  inner : s.traffic.IsInner → t.traffic.IsInner
  returns : t.returns = s.returns

/-- What changes neither the calls nor what was returned is secluded. -/
theorem secluded_of_eq (htraffic : t.traffic = s.traffic) (hreturns : t.returns = s.returns) :
    Secluded s t :=
  ⟨fun h => htraffic ▸ h, hreturns⟩

/-- A call of the consumer goes on. -/
theorem secluded_of_after {m : Broker.Move} (hm : s.traffic.after m = some t.traffic)
    (hq : ∀ q, m ≠ .begin q) (hreturns : t.returns = s.returns) : Secluded s t :=
  ⟨fun h => h.after hm hq, hreturns⟩

theorem Secluded.trans {u : Workshop} (h : Secluded s t) (h' : Secluded t u) : Secluded s u :=
  ⟨fun hs => h'.inner (h.inner hs), h'.returns.trans h.returns⟩

/-- A worker that comes to a stage may begin a call of its own. -/
theorem secluded_enter (s : Workshop) (k : Nat) (p : Post) (stage : Worker.Stage) :
    Secluded s (s.enter k p stage) := by
  unfold enter
  dsimp only
  split
  · exact ⟨fun h => h.accept rfl, rfl⟩
  · exact ⟨fun h => h.accept rfl, rfl⟩
  all_goals exact secluded_of_eq rfl rfl

theorem secluded_attend {k : Nat} {p : Post} {call : Nat} (hm : s.attend k p call = some t) :
    Secluded s t := by
  obtain ⟨u, hu, rfl⟩ := Option.map_eq_some_iff.mp hm
  have hnext : Secluded s { s with
      traffic := u, deliveries := s.deliveries ++ s.traffic.deliveries (.advance call) } :=
    secluded_of_after hu (fun _ => by simp) rfl
  dsimp only
  split
  · exact hnext.trans (secluded_enter _ k p _)
  · exact hnext

theorem secluded_work {k : Nat} {p : Post} (hm : s.work k p = some t) : Secluded s t := by
  unfold work at hm
  split at hm
  · exact Option.some.inj hm ▸ secluded_enter s k p _
  · exact Option.some.inj hm ▸ secluded_enter s k p _
  · exact secluded_attend hm
  · exact secluded_attend hm
  · split at hm
    · exact Option.some.inj hm ▸ secluded_enter s k p _
    · contradiction
  · contradiction

theorem secluded_interrupt {k : Nat} {p : Post} (hm : s.interrupt k p = some t) : Secluded s t := by
  unfold interrupt at hm
  split at hm
  · split at hm
    · obtain ⟨u, hu, rfl⟩ := Option.map_eq_some_iff.mp hm
      have hnext : Secluded s { s with traffic := u } := secluded_of_after hu (fun _ => by simp) rfl
      exact hnext.trans (secluded_enter _ k p _)
    · contradiction
  · contradiction

/-- Moves that need neither the handler nor anybody outside are secluded. -/
theorem secluded_after {m : Move} (hm : s.after m = some t) (hi : m.isInternal = true) :
    Secluded s t := by
  cases m with
  | ask q | handle k result => contradiction
  | carry i =>
    simp only [after] at hm
    split at hm
    · obtain ⟨u, hu, rfl⟩ := Option.map_eq_some_iff.mp hm
      exact secluded_of_after hu (fun _ => by simp) rfl
    · contradiction
  | rearrange locks =>
    obtain ⟨u, hu, rfl⟩ := Option.map_eq_some_iff.mp hm
    exact secluded_of_after hu (fun _ => by simp) rfl
  | wait ms =>
    cases hm
    exact ⟨id, rfl⟩
  | cancel | request =>
    cases hm
    exact secluded_of_eq rfl rfl
  | proceed i =>
    obtain ⟨life, -, rfl⟩ := Option.map_eq_some_iff.mp hm
    exact secluded_of_eq rfl rfl
  | close i =>
    simp only [after, close] at hm
    split at hm
    · cases hm
      exact ⟨fun h => h.accept rfl, rfl⟩
    · contradiction
  | answer i =>
    simp only [after, answer] at hm
    split at hm
    · obtain ⟨life, -, rfl⟩ := Option.map_eq_some_iff.mp hm
      exact secluded_of_eq rfl rfl
    · contradiction
  | work k =>
    obtain ⟨p, -, hw⟩ := Option.bind_eq_some_iff.mp hm
    exact secluded_work hw
  | interrupt k =>
    obtain ⟨p, -, hw⟩ := Option.bind_eq_some_iff.mp hm
    exact secluded_interrupt hw

/-- When the handler returns, it returns for the message before the worker; the call that may
follow is the worker's. -/
theorem secluded_handle {k : Nat} {result : Except String Unit}
    (hm : s.after (.handle k result) = some t) :
    ∃ m, Secluded { s with returns := s.returns ++ [(m, result)] } t := by
  obtain ⟨p, -, hw⟩ := Option.bind_eq_some_iff.mp hm
  unfold handle at hw
  split at hw
  · next m rest _ => exact ⟨m, Option.some.inj hw ▸ secluded_enter _ k p _⟩
  · contradiction

/-! ## Where deliveries come from -/

/-- Every delivery is of a copy that has arrived. -/
def Traced (s : Workshop) : Prop :=
  ∀ l ∈ s.deliveries, ∃ a ∈ s.traffic.arrivals, l.copy.Continues a.copy

theorem Turn.traced (ht : Turn s t) (hp : s.Parts settings) (h : s.Traced) : t.Traced := by
  obtain ⟨htraffic, hds⟩ | ⟨m, hm, hds⟩ := ht.traffic hp.receiver
  · rw [Traced, htraffic, hds]
    exact h
  · have hstep : s.traffic.Leads t.traffic := .step (.refl _) hm
    intro l hl
    rw [hds, List.mem_append] at hl
    obtain hl | hl := hl
    · obtain ⟨a, ha, hla⟩ := h l hl
      exact ⟨a, hstep.arrivals_subset ha, hla⟩
    · have hlock := Broker.Traffic.mem_locks_of_mem_deliveries hm hl
      have hledger := (hp.traffic.leads hstep).ledger
      obtain ⟨a, ha, -, hla⟩ := hledger.traced l.entity l.copy (.locked l hlock rfl rfl)
      exact ⟨a, ha, hla⟩

theorem Reachable.traced (h : s.Reachable settings) : s.Traced :=
  (h.invariant (fun s hs l hl => by rw [hs.deliveries] at hl; contradiction)
    fun _ _ hp ht hd => ht.traced hp hd).2

/-- What is before a worker has arrived. -/
theorem Reachable.traced_of_unhandled (h : s.Reachable settings) {m : Message}
    (hm : m ∈ s.unhandled) : ∃ a ∈ s.traffic.arrivals, m.SameContent a.copy.message := by
  obtain ⟨l, hl, rfl⟩ := List.mem_map.mp (h.dealt.dealt.mem_iff.mpr (List.mem_append_right _ hm))
  obtain ⟨a, ha, hla⟩ := h.traced l hl
  exact ⟨a, ha, hla.content⟩

/-! ## Everything is taken -/

/-- The handler has taken everything, and whatever is completed was delivered once. -/
structure FirstHand (s : Workshop) : Prop where
  taken : ∀ x ∈ s.returns, x.2 = .ok ()
  traffic : s.traffic.FirstHand s.receiver (s.settlements.map (·.1))
  delivered : ∀ l ∈ s.deliveries, 0 < l.copy.message.deliveryCount

/-- A settlement is called for under the token of a delivery. -/
theorem Dealt.tokens_subset (h : s.Dealt) (ht : s.traffic.Tracked s.deliveries) :
    s.settlements.map (·.1) ⊆ s.deliveries.map (·.token) := by
  intro token hm
  rw [h.settled, List.map_map] at hm
  exact (h.tokens ht).mem_iff.mpr (List.mem_append_left _ hm)

theorem Turn.firstHand (ht : Turn s t) (hp : s.Parts settings) (hd : s.Dealt) (h : s.FirstHand)
    (hi : t.traffic.IsInner) (hok : ∀ x ∈ t.returns, x.2 = .ok ()) : t.FirstHand := by
  have htokens := hd.tokens_subset hp.tracked
  have hdelivered : ∀ l ∈ t.deliveries, 0 < l.copy.message.deliveryCount := by
    obtain ⟨-, hds⟩ | ⟨m, -, hds⟩ := ht.traffic hp.receiver
    · exact hds ▸ h.delivered
    · intro l hl
      rw [hds, List.mem_append] at hl
      refine hl.elim (h.delivered l) fun hl => ?_
      unfold Broker.Traffic.deliveries at hl
      split at hl
      · split at hl
        · exact Broker.Transfer.deliveryCount_pos_of_mem_deliveries hl
        · contradiction
      · contradiction
  refine ⟨hok, ?_, hdelivered⟩
  have hf := h.traffic
  cases ht with
  | asks q hq =>
    have hinner := hi _ _ _ List.getElem?_concat_length
    cases q <;> contradiction
  | carries i began c hc => exact hf.advance hp.traffic hp.tracked htokens hc
  | rearranges locks hperm => exact hf.rearrange hperm
  | waits ms => exact hf.pass ms
  | closes => exact hf.accept rfl
  | receives => exact hf.accept trivial
  | polls k p i began c c' hk hs he hc | finds k p i began c locks hk hs he hc
  | misses k p i began c e stage errand hk hs he hc =>
    exact hf.advance hp.traffic hp.tracked htokens hc
  | presses k p i began c c' m rest hk hs he hc | settles k p i began c m rest result hk hs he hc =>
    exact hf.advance hp.traffic hp.tracked htokens hc
  | drops k p i began c stage errand hk hs he hc => exact hf.dropReceive hc
  | handles k p m rest result hk hs =>
    have hresult : result = .ok () :=
      hok (m, result) (List.mem_append_right _ (List.mem_singleton_self _))
    subst hresult
    refine (hf.mono ?_).accept ⟨rfl, rfl, ?_⟩
    · rw [List.map_append]
      exact List.subset_append_left _ _
    · rw [List.map_append]
      exact List.mem_append_right _ (List.mem_singleton_self _)
  | _ => exact hf

/-- Nothing arrives any more. -/
theorem Turn.arrivals (ht : Turn s t) (hp : s.Parts settings) (h : s.FirstHand) :
    t.traffic.arrivals = s.traffic.arrivals := by
  obtain ⟨htraffic, -⟩ | ⟨m, hm, -⟩ := ht.traffic hp.receiver
  · rw [htraffic]
  · obtain ⟨q, -, -, hu⟩ | ⟨i, began, c, -, hi, -, hu⟩ | ⟨i, began, c, -, hi, hu⟩ | ⟨ms, -, hu⟩ |
      ⟨locks, -, -, hu⟩ := Broker.Traffic.after_cases hm
    · rw [hu]
      rfl
    · rw [hu]
      simp only [Broker.Traffic.advance, (h.traffic.plain i began c hi).arrivals, List.map_nil,
        List.append_nil]
    all_goals
      rw [hu]
      rfl

/-! ## When nothing is left -/

section

variable (h : s.FirstHand) (hp : s.Parts settings) (hd : s.Dealt)
  (hx : s.traffic.Exhausted s.receiver.entity)

include h hp hd hx

/-- Every delivery is completed. -/
theorem FirstHand.completed_of_delivery {l : Lock} (hl : l ∈ s.deliveries) :
    l.copy ∈ s.traffic.broker.completed :=
  hx.completed_of_delivery hp.tracked (fun l hl => (hd.own l hl).2) h.delivered
    (fun c hc => (h.traffic.completed c hc).1) hl

/-- The handler has returned for everything that was delivered. -/
theorem FirstHand.unhandled_eq_nil : s.unhandled = [] := by
  refine List.eq_nil_iff_forall_not_mem.mpr fun m hm => ?_
  obtain ⟨l, hl, hlm⟩ := List.mem_map.mp (hd.dealt.mem_iff.mpr (List.mem_append_right _ hm))
  have hasked := (h.traffic.completed _ (h.completed_of_delivery hp hd hx hl)).2
  rw [hlm, hd.settled, List.map_map] at hasked
  have hnodup := (hd.tokens hp.tracked).nodup_iff.mp hp.tracked.distinct
  rw [List.nodup_append] at hnodup
  exact hnodup.2.2 _ hasked _ (List.mem_map_of_mem hm) rfl

/-- The handler has taken every message once, as it was completed. -/
theorem FirstHand.perm_returns :
    (s.returns.map (·.1)).Perm (s.traffic.broker.completed.map (·.message)) := by
  have hdealt := hd.dealt
  rw [h.unhandled_eq_nil hp hd hx, List.append_nil] at hdealt
  have hnodup : (s.deliveries.map (·.copy)).Nodup := by
    refine List.Nodup.of_map (fun c => c.message.lockToken) ?_
    rw [List.map_map]
    have hsame : s.deliveries.map ((fun c : Copy => c.message.lockToken) ∘ (·.copy)) =
        s.deliveries.map (·.token) :=
      List.map_congr_left fun l hl => hp.tracked.named l hl
    rw [hsame]
    exact hp.tracked.distinct
  have hcopies : (s.deliveries.map (·.copy)).Perm s.traffic.broker.completed := by
    have hcompleted := List.Nodup.of_map _ hp.traffic.ledger.nodup_completed
    refine (List.perm_ext_iff_of_nodup hnodup hcompleted).mpr fun c => ⟨fun hc => ?_, fun hc => ?_⟩
    · obtain ⟨l, hl, rfl⟩ := List.mem_map.mp hc
      exact h.completed_of_delivery hp hd hx hl
    · obtain ⟨l, hl, rfl⟩ := hp.tracked.completed c hc
      exact List.mem_map_of_mem hl
  have hmessages := hcopies.map (·.message)
  rw [List.map_map] at hmessages
  exact hdealt.symm.trans hmessages

end

end Workshop

end PeekLock
