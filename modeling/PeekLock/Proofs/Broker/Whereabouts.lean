import PeekLock.Proofs.Broker.Deliveries

/-!
# PeekLock.Proofs.Broker.Whereabouts

What has become of each delivery.

Deliveries are noted from a moment on at which nothing is locked and
nothing is in the hands of a call.  From then on every delivery has a
token of its own, and its copy is under the lock, in the hands of a call,
completed, or back in its queue, or it has been delivered again (`Fate`).
-/

namespace PeekLock.Broker

/-- A batch that is taken delivers every copy of it. -/
theorem exists_mem_lockAll {supply : Identifier.Supply} {r : Receiver} {n : Nat}
    {copies : List Copy} {c : Copy} (h : c ∈ copies) :
    ∃ l ∈ lockAll supply r n copies, l.entity = r.entity ∧ l.copy = c.handOut l.token := by
  induction copies generalizing n with
  | nil => contradiction
  | cons d rest ih =>
    rw [List.mem_cons] at h
    obtain rfl | h := h
    · exact ⟨_, List.mem_cons_self, rfl, rfl⟩
    · obtain ⟨l, hl, hcopy⟩ := ih (n := n + 1) h
      exact ⟨l, List.mem_cons_of_mem _ hl, hcopy⟩

namespace Transfer

/-- What a transfer delivers has tokens from the supply, which are drawn with it. -/
theorem token_of_mem_deliveries {b : Broker} {t : Transfer} {l : Lock} (h : l ∈ t.deliveries b) :
    ∃ k, b.issued ≤ k ∧ k < (t.apply b).issued ∧ l.token = ⟨b.supply.nth k⟩ := by
  cases t with
  | take r most =>
    obtain ⟨k, hk, hlt, ht⟩ := token_of_mem_lockAll h
    refine ⟨k, hk, ?_, ht⟩
    show k < b.issued + (lockAll b.supply r b.issued ((b.queue r.entity).take most)).length
    rwa [length_lockAll]
  | _ => contradiction

theorem nodup_deliveries (b : Broker) (t : Transfer) : ((t.deliveries b).map (·.token)).Nodup := by
  cases t with
  | take r most =>
    simp only [deliveries]
    rw [map_token_lockAll]
    exact nodup_tokens _ _ _
  | _ => exact List.nodup_nil

/-- A message is delivered under its token. -/
theorem lockToken_of_mem_deliveries {b : Broker} {t : Transfer} {l : Lock}
    (h : l ∈ t.deliveries b) : l.copy.message.lockToken = l.token := by
  cases t with
  | take r most =>
    obtain ⟨-, -, c, -, hc⟩ := mem_lockAll h
    rw [hc]
    rfl
  | _ => contradiction

/-- A lock stays, or it is released, or it lapses with those of its receiver. -/
theorem lock_leaves {b : Broker} (hm : Minted b) (t : Transfer) {l : Lock} (h : l ∈ b.locks)
    (ht : ∀ k, t = .release k → k ∈ b.locks) :
    l ∈ (t.apply b).locks ∨ t = .release l ∨ ∃ r, t = .lapse r ∧ l.receiver = r.id := by
  cases t with
  | arrival target m =>
    refine .inl ?_
    simp only [apply]
    rw [enqueue_frame]
    exact h
  | take r most =>
    refine .inl ?_
    simp only [apply]
    rw [locks_take]
    exact List.mem_append_left _ h
  | release k =>
    by_cases hk : k.token = l.token
    · have hkl : k = l := List.inj_on_of_nodup_map hm.distinct (ht k rfl) h hk
      exact .inr (.inl (congrArg release hkl))
    · exact .inl (List.mem_filter.mpr ⟨h, by simpa using Ne.symm hk⟩)
  | lapse r =>
    by_cases hr : l.receiver = r.id
    · exact .inr (.inr ⟨r, rfl, hr⟩)
    · refine .inl ?_
      simp only [apply]
      rw [lapse_eq]
      exact List.mem_filter.mpr ⟨h, by simpa using hr⟩
  | _ => exact .inl h

/-- The copy of a lock that goes, and is not released, is in its queue again. -/
theorem lock_stays {b : Broker} (hm : Minted b) (t : Transfer) {l : Lock} (h : l ∈ b.locks)
    (ht : ∀ k, t = .release k → k ∈ b.locks) :
    l ∈ (t.apply b).locks ∨ t = .release l ∨ l.copy ∈ (t.apply b).queue l.entity := by
  obtain hl | hr | ⟨r, rfl, hr⟩ := lock_leaves hm t h ht
  · exact .inl hl
  · exact .inr (.inl hr)
  · refine .inr (.inr ?_)
    simp only [apply]
    rw [queue_lapse, List.mem_append, List.mem_reverse]
    refine .inl (List.mem_map_of_mem (List.mem_filter.mpr ⟨?_, decide_eq_true rfl⟩))
    exact List.mem_filter.mpr ⟨h, decide_eq_true hr⟩

/-- A copy that waits goes on waiting, or it is delivered. -/
theorem waiting_stays {b : Broker} (t : Transfer) {e : String} {c : Copy} (h : c ∈ b.queue e) :
    c ∈ (t.apply b).queue e ∨ ∃ l ∈ t.deliveries b, l.entity = e ∧ l.copy = c.handOut l.token := by
  cases t with
  | arrival target m =>
    refine .inl ?_
    simp only [apply]
    rw [queue_enqueue]
    exact List.mem_append_left _ h
  | take r most =>
    simp only [apply]
    rw [queue_take]
    by_cases he : e = r.entity
    · subst he
      rw [if_pos rfl]
      rw [← List.take_append_drop most (b.queue r.entity), List.mem_append] at h
      exact h.symm.imp_right exists_mem_lockAll
    · rw [if_neg he]
      exact .inl h
  | restoration l =>
    refine .inl ?_
    simp only [apply]
    rw [queue_recordAbandoned]
    exact List.mem_append_right _ h
  | lapse r =>
    refine .inl ?_
    simp only [apply]
    rw [queue_lapse]
    exact List.mem_append_right _ h
  | _ => exact .inl h

/-- What is completed stays so. -/
theorem completed_stays {b : Broker} (t : Transfer) {c : Copy} (h : c ∈ b.completed) :
    c ∈ (t.apply b).completed := by
  cases t with
  | arrival target m =>
    simp only [apply]
    rw [enqueue_frame]
    exact h
  | completion l => exact List.mem_append_left _ h
  | lapse r =>
    simp only [apply]
    rw [lapse_eq]
    exact h
  | _ => exact h

end Transfer

theorem mem_abandoned_apply {b : Broker} {t : Transfer} {c : Copy}
    (h : c ∈ (t.apply b).abandoned) :
    c ∈ b.abandoned ∨ ∃ l, t.putsDown? = some l ∧ c = l.copy := by
  cases t with
  | arrival target m =>
    simp only [Transfer.apply] at h
    rw [enqueue_frame] at h
    exact .inl h
  | restoration l =>
    simp only [Transfer.apply, recordAbandoned, giveBack, List.mem_append,
      List.mem_singleton] at h
    exact h.imp_right fun hc => ⟨l, rfl, hc⟩
  | lapse r =>
    simp only [Transfer.apply] at h
    rw [lapse_eq] at h
    exact .inl h
  | _ => exact .inl h

/-- What a call puts down is completed, or it is back in its queue. -/
theorem putDown_settled {b : Broker} {t : Transfer} {l : Lock} (h : t.putsDown? = some l) :
    l.copy ∈ (t.apply b).completed ∨ l.copy ∈ (t.apply b).queue l.entity := by
  cases t with
  | completion k =>
    cases h
    exact .inl (List.mem_append_right _ (List.mem_singleton_self _))
  | restoration k =>
    cases h
    refine .inr ?_
    simp only [Transfer.apply]
    rw [queue_recordAbandoned, if_pos rfl]
    exact List.mem_cons_self
  | _ => contradiction

namespace Traffic

/-- What has become of a delivery. -/
inductive Fate (s : Traffic) (ds : List Lock) (l : Lock) : Prop where
  | locked (h : l ∈ s.broker.locks)
  | inHands (h : l ∈ s.hands)
  | completed (h : l.copy ∈ s.broker.completed)
  | waiting (h : l.copy ∈ s.broker.queue l.entity)
  | again (k : Lock) (h : k ∈ ds) (he : k.entity = l.entity) (hc : k.copy = l.copy.handOut k.token)

/-- The deliveries since nothing was locked are known. -/
structure Tracked (s : Traffic) (ds : List Lock) : Prop where
  minted : Minted s.broker
  distinct : (ds.map (·.token)).Nodup
  drawn : ∀ l ∈ ds, ∃ k < s.broker.issued, l.token = ⟨s.broker.supply.nth k⟩
  named : ∀ l ∈ ds, l.copy.message.lockToken = l.token
  locks : ∀ l ∈ s.broker.locks, l ∈ ds
  hands : ∀ l ∈ s.hands, l ∈ ds
  completed : ∀ c ∈ s.broker.completed, ∃ l ∈ ds, l.copy = c
  abandoned : ∀ c ∈ s.broker.abandoned, ∃ l ∈ ds, l.copy = c
  fate : ∀ l ∈ ds, s.Fate ds l

/-- What a call holds is in the hands of the calls. -/
theorem mem_hands {s : Traffic} {i : Nat} {x : Entry} {l : Lock} (hi : s.calls[i]? = some x)
    (h : x.held? = some l) : l ∈ s.hands :=
  List.mem_filterMap.mpr ⟨x, List.mem_of_getElem? hi, h⟩

namespace Fate

variable {s : Traffic} {ds : List Lock} {l : Lock}

theorem of_rests {t : Traffic} (h : s.Fate ds l) (hr : s.Rests t) : t.Fate ds l := by
  cases h with
  | locked h => exact .locked (hr.broker.locks.mem_iff.mpr h)
  | inHands h => exact .inHands (hr.hands ▸ h)
  | completed h => exact .completed (hr.broker.completed ▸ h)
  | waiting h => exact .waiting ((hr.broker.queue l.entity).symm ▸ h)
  | again k h he hc => exact .again k h he hc

/-- A lock that a step drops is in the hands of its call, or its copy is back. -/
theorem advance_locked (hm : Minted s.broker) {i began : Nat} {c : Call}
    (hi : s.calls[i]? = some ⟨began, .on c⟩) (h : l ∈ s.broker.locks) :
    (s.advance i began c).Fate ds l := by
  have hk := c.step_keepsCopies s.now s.broker
  obtain hl | ht | hq := (c.transfer s.broker).lock_stays hm h fun k => Call.mem_locks_of_release
  · exact .locked (hk.locks.mem_iff.mpr hl)
  · refine .inHands (mem_hands (getElem?_advance hi) ?_)
    rw [Call.held?_step, ht]
    rfl
  · exact .waiting ((hk.queue l.entity).symm ▸ hq)

/-- What a call has in its hands it keeps, or it puts it down. -/
theorem advance_inHands {i began : Nat} {c : Call} (hi : s.calls[i]? = some ⟨began, .on c⟩)
    (h : l ∈ s.hands) : (s.advance i began c).Fate ds l := by
  have hk := c.step_keepsCopies s.now s.broker
  obtain ⟨x, hx, hl⟩ := List.mem_filterMap.mp h
  obtain ⟨j, hj⟩ := List.mem_iff_getElem?.mp hx
  by_cases hij : i = j
  · subst hij
    rw [hi] at hj
    cases hj
    have hput : (c.transfer s.broker).putsDown? = some l := by
      rw [← c.held?_eq_putsDown?]
      exact hl
    obtain hc | hq := putDown_settled (b := s.broker) hput
    · exact .completed (hk.completed ▸ hc)
    · exact .waiting ((hk.queue l.entity).symm ▸ hq)
  · exact .inHands (mem_hands ((getElem?_advance_ne hij).trans hj) hl)

theorem advance (h : s.Fate ds l) (hm : Minted s.broker) {i began : Nat} {c : Call}
    (hi : s.calls[i]? = some ⟨began, .on c⟩) :
    (s.advance i began c).Fate (ds ++ (c.transfer s.broker).deliveries s.broker) l := by
  have hk := c.step_keepsCopies s.now s.broker
  cases h with
  | locked h => exact advance_locked hm hi h
  | inHands h => exact advance_inHands hi h
  | completed h => exact .completed (hk.completed ▸ Transfer.completed_stays _ h)
  | waiting h =>
    obtain hq | ⟨k, hkm, he, hc⟩ := (c.transfer s.broker).waiting_stays h
    · exact .waiting ((hk.queue l.entity).symm ▸ hq)
    · exact .again k (List.mem_append_right _ hkm) he hc
  | again k h he hc => exact .again k (List.mem_append_left _ h) he hc

end Fate

namespace Tracked

variable {s : Traffic} {ds : List Lock}

/-- What moves no copy delivers nothing. -/
theorem of_rests {t : Traffic} (h : s.Tracked ds) (hr : s.Rests t) : t.Tracked ds where
  minted := h.minted.of_keepsCopies hr.broker
  distinct := h.distinct
  drawn l hl := by
    obtain ⟨k, hlt, ht⟩ := h.drawn l hl
    rw [hr.broker.supply]
    exact ⟨k, Nat.lt_of_lt_of_le hlt hr.broker.issued, ht⟩
  named := h.named
  locks l hl := h.locks l (hr.broker.locks.mem_iff.mp hl)
  hands l hl := h.hands l (hr.hands ▸ hl)
  completed c hc := h.completed c (hr.broker.completed ▸ hc)
  abandoned c hc := h.abandoned c (hr.broker.abandoned ▸ hc)
  fate l hl := (h.fate l hl).of_rests hr

/-- What a call puts down was delivered. -/
theorem mem_of_putsDown? (h : s.Tracked ds) {i began : Nat} {c : Call} {l : Lock}
    (hi : s.calls[i]? = some ⟨began, .on c⟩) (hl : (c.transfer s.broker).putsDown? = some l) :
    l ∈ ds := by
  rw [← c.held?_eq_putsDown? s.broker] at hl
  exact h.hands l (mem_hands hi hl)

/-- New deliveries have tokens that no delivery had. -/
theorem distinct_append (h : s.Tracked ds) (t : Transfer) :
    ((ds ++ t.deliveries s.broker).map (·.token)).Nodup := by
  rw [List.map_append, List.nodup_append]
  refine ⟨h.distinct, t.nodup_deliveries s.broker, ?_⟩
  intro a ha b hb heq
  obtain ⟨l, hl, rfl⟩ := List.mem_map.mp ha
  obtain ⟨l', hl', rfl⟩ := List.mem_map.mp hb
  obtain ⟨k, hk, hlk⟩ := h.drawn l hl
  obtain ⟨k', hk', -, hlk'⟩ := t.token_of_mem_deliveries hl'
  rw [hlk, hlk'] at heq
  have := s.broker.supply.nth_inj (congrArg LockToken.text heq)
  omega

/-- A new delivery is under its lock. -/
theorem locked_of_mem_deliveries {i began : Nat} {c : Call} {l : Lock}
    (h : l ∈ (c.transfer s.broker).deliveries s.broker) :
    l ∈ (s.advance i began c).broker.locks := by
  refine (c.step_keepsCopies s.now s.broker).locks.mem_iff.mpr ?_
  revert h
  cases c.transfer s.broker with
  | take r most =>
    intro h
    simp only [Transfer.apply]
    rw [locks_take]
    exact List.mem_append_right _ h
  | _ => intro h; contradiction

theorem advance (h : s.Tracked ds) {i began : Nat} {c : Call}
    (hi : s.calls[i]? = some ⟨began, .on c⟩) :
    (s.advance i began c).Tracked (ds ++ (c.transfer s.broker).deliveries s.broker) where
  minted := h.minted.step s.now c
  distinct := h.distinct_append _
  drawn l hl := by
    have hle := (c.step_keepsCopies s.now s.broker).issued
    rw [supply_advance]
    obtain hl | hl := List.mem_append.mp hl
    · obtain ⟨k, hk, ht⟩ := h.drawn l hl
      exact ⟨k, Nat.lt_of_lt_of_le hk (Nat.le_trans (issued_le_apply _ _) hle), ht⟩
    · obtain ⟨k, -, hk, ht⟩ := Transfer.token_of_mem_deliveries hl
      exact ⟨k, Nat.lt_of_lt_of_le hk hle, ht⟩
  named l hl := (List.mem_append.mp hl).elim (h.named l) Transfer.lockToken_of_mem_deliveries
  locks l hl := by
    have hl' := (c.step_keepsCopies s.now s.broker).locks.mem_iff.mp hl
    rw [List.mem_append]
    exact (Transfer.mem_locks_or_deliveries hl').imp_left (h.locks l)
  hands l hl := List.mem_append_left _ ((mem_hands_advance hl).elim (h.hands l) (h.locks l))
  completed d hd := by
    have hk := c.step_keepsCopies s.now s.broker
    have hd' : d ∈ ((c.transfer s.broker).apply s.broker).completed := hk.completed ▸ hd
    obtain hd' | ⟨l, hl, rfl⟩ := mem_completed_apply hd'
    · obtain ⟨l, hl, hc⟩ := h.completed d hd'
      exact ⟨l, List.mem_append_left _ hl, hc⟩
    · exact ⟨l, List.mem_append_left _ (h.mem_of_putsDown? hi hl), rfl⟩
  abandoned d hd := by
    have hk := c.step_keepsCopies s.now s.broker
    have hd' : d ∈ ((c.transfer s.broker).apply s.broker).abandoned := hk.abandoned ▸ hd
    obtain hd' | ⟨l, hl, rfl⟩ := mem_abandoned_apply hd'
    · obtain ⟨l, hl, hc⟩ := h.abandoned d hd'
      exact ⟨l, List.mem_append_left _ hl, hc⟩
    · exact ⟨l, List.mem_append_left _ (h.mem_of_putsDown? hi hl), rfl⟩
  fate l hl := by
    obtain hl | hl := List.mem_append.mp hl
    · exact (h.fate l hl).advance h.minted hi
    · exact .locked (locked_of_mem_deliveries hl)

/-- A move adds what it delivers. -/
theorem step (h : s.Tracked ds) {m : Move} {t : Traffic} (hm : s.after m = some t) :
    t.Tracked (ds ++ s.deliveries m) := by
  obtain ⟨i, began, c, rfl, hi, rfl⟩ | ⟨hrests, hnone⟩ := advances_or_rests hm
  · rw [deliveries_advance hi]
    exact h.advance hi
  · rw [hnone, List.append_nil]
    exact h.of_rests hrests

/-- Two deliveries never share a token. -/
theorem eq_of_token (h : s.Tracked ds) {l k : Lock} (hl : l ∈ ds) (hk : k ∈ ds)
    (ht : l.token = k.token) : l = k :=
  List.inj_on_of_nodup_map h.distinct hl hk ht

end Tracked

/-- What a move delivers is locked then. -/
theorem mem_locks_of_mem_deliveries {s t : Traffic} {m : Move} {l : Lock}
    (hm : s.after m = some t) (hl : l ∈ s.deliveries m) : l ∈ t.broker.locks := by
  obtain ⟨i, began, c, rfl, hi, -⟩ := advance_of_deliveries (List.ne_nil_of_mem hl)
  rw [deliveries_advance hi] at hl
  obtain ⟨-, rfl⟩ := eq_advance hi hm
  exact Tracked.locked_of_mem_deliveries hl

end Traffic

end PeekLock.Broker
