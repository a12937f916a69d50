import PeekLock.Proofs.Broker.Closing
import PeekLock.Proofs.Broker.SingleUse
import PeekLock.Proofs.Broker.Whereabouts

/-!
# PeekLock.Proofs.Broker.Refusals

A settlement that fails leaves the lock where it is.

As long as no settlement under its token succeeds and its receiver is open,
a lock stays, whatever else goes on (`Leads.mem_locks`); so its message can
still be settled (`settles_of_lock?`).
-/

namespace PeekLock.Broker

/-- Whoever releases a lock presents its token, and has released it then. -/
theorem Call.settling_of_release {b : Broker} {c : Call} {l : Lock}
    (h : c.transfer b = .release l) : ∃ k : Settle, c = .settling k ∧ k.token = l.token ∧
      (k.step b).progress = .on { k with point := .recording l } := by
  unfold Call.transfer at h
  split at h
  case h_4 r token verdict =>
    cases hl : b.lock? r token with
    | none =>
      rw [hl] at h
      contradiction
    | some k =>
      rw [hl] at h
      injection h with h
      subst h
      refine ⟨_, rfl, (mem_of_lock? hl).2.1.symm, ?_⟩
      simp only [Settle.step, hl]
  all_goals contradiction

/-- Only a close lets locks lapse. -/
theorem Call.closing_of_lapse {b : Broker} {c : Call} {r : Receiver}
    (h : c.transfer b = .lapse r) : c = .closing ⟨r, .lapsing⟩ := by
  unfold Call.transfer at h
  split at h
  case h_4 r token verdict =>
    cases hl : b.lock? r token <;> rw [hl] at h <;> contradiction
  case h_7 =>
    injection h with h
    rw [h]
  all_goals contradiction

/-- A close has marked its receiver before a step, or in it. -/
theorem Call.isClosing_of_step {now : Nat} {b : Broker} {c c' : Call} {r : Receiver}
    (h : (c.step now b).progress = .on c') (hc : c'.isClosing r = true) :
    c.isClosing r = true ∨ (c.step now b).state.isOpen r = false := by
  cases c with
  | closing c =>
    obtain ⟨k, point⟩ := c
    obtain ⟨c', hp, rfl⟩ := Progress.map_eq_on h
    cases point with
    | marking =>
      refine .inr ?_
      simp only [Close.step, Call.step, Step.map] at hp ⊢
      split at hp
      · next ho =>
        cases hp
        have hid : k.id = r.id := by simpa [isClosing] using hc
        rw [if_pos ho]
        simp [isOpen, hid]
      · cases hp
    | lapsing =>
      cases hp
      exact .inl hc
    | announcing => cases hp
  | subscribing topic name => contradiction
  | arranging faults => contradiction
  | _ =>
    obtain ⟨_, -, rfl⟩ := Progress.map_eq_on h
    contradiction

namespace Traffic

variable {s t : Traffic} {r : Receiver} {l : Lock}

/-- A close that has marked its receiver has closed it. -/
theorem Reachable.isOpen_of_isClosing (h : s.Reachable) : ∀ (i began : Nat) (c : Call),
    s.calls[i]? = some ⟨began, .on c⟩ → c.isClosing r = true → s.broker.isOpen r = false := by
  obtain ⟨supply, h⟩ := h
  refine h.invariant (P := fun s => ∀ (i began : Nat) (c : Call),
    s.calls[i]? = some ⟨began, .on c⟩ → c.isClosing r = true → s.broker.isOpen r = false)
    ?_ ?_ ?_ ?_ ?_ ?_
  · intro i began c hi
    contradiction
  · intro s q _ ih i began c hi hc
    obtain hi | hq := call_of_accept hi
    · exact ih i began c hi hc
    · rw [hq.2] at hc
      cases q <;> simp [Request.call, Call.isClosing] at hc
  · intro s i began c hi _ ih j began' k hj hk
    obtain ⟨-, hj⟩ | ⟨-, -, hp⟩ := call_of_advance hi hj
    · exact Call.isOpen_step (ih j began' k hj hk) s.now c
    · obtain hc | hclosed := Call.isClosing_of_step hp hk
      · exact Call.isOpen_step (ih i began c hi hc) s.now c
      · exact hclosed
  · intro s i began c hi ih j began' k hj hk
    exact (c.isOpen_drop s.broker r).trans (ih j began' k (call_of_dropReceive hi hj) hk)
  · exact fun s ms ih => ih
  · exact fun s locks _ ih => ih

/-- A closed receiver stays closed. -/
theorem Leads.isOpen_eq_false (h : s.Leads t) (hc : s.broker.isOpen r = false) :
    t.broker.isOpen r = false := by
  refine h.invariant (P := fun t => t.broker.isOpen r = false) hc ?_ ?_ ?_ ?_ ?_
  · exact fun t q _ ih => ih
  · exact fun t i began c _ _ ih => Call.isOpen_step ih t.now c
  · exact fun t i began c _ ih => (c.isOpen_drop t.broker r).trans ih
  · exact fun t ms ih => ih
  · exact fun t locks _ ih => ih

/-- A settlement that ends well is one in every later state. -/
theorem Leads.endsWell (h : s.Leads t) {i : Nat} {x : Entry} (hi : s.calls[i]? = some x)
    (hx : EndsWell x) : ∃ y, t.calls[i]? = some y ∧ EndsWell y :=
  h.entry_invariant hi hx (fun _ _ _ _ => EndsWell.step) fun _ _ hd => by cases hd

/-- No settlement under a token that was on its way between two states has released a lock: it
has ended with an error, or it has not come so far. -/
def NoneSucceeds (s t : Traffic) (token : LockToken) : Prop :=
  ∀ (u : Traffic) (i began : Nat) (c : Settle), s.Leads u → u.Leads t →
    u.calls[i]? = some ⟨began, .on (.settling c)⟩ → c.token = token →
      ∀ x, t.calls[i]? = some x → ¬EndsWell x

/-- A step keeps a lock, unless it releases it for a settlement that can only end well, or the
receiver is closed. -/
theorem Reachable.mem_locks_advance (hs : s.Reachable) (hl : l ∈ s.broker.locks)
    (hr : l.receiver = r.id) {i began : Nat} {c : Call} (hi : s.calls[i]? = some ⟨began, .on c⟩) :
    l ∈ (s.advance i began c).broker.locks ∨ s.broker.isOpen r = false ∨
      ∃ k : Settle, c = .settling k ∧ k.token = l.token ∧
        ∃ x, (s.advance i began c).calls[i]? = some x ∧ EndsWell x := by
  have hk := c.step_keepsCopies s.now s.broker
  obtain hl | ht | ⟨r', ht, hr'⟩ :=
    (c.transfer s.broker).lock_leaves hs.minted hl fun k => Call.mem_locks_of_release
  · exact .inl (hk.locks.mem_iff.mpr hl)
  · obtain ⟨k, rfl, htoken, hp⟩ := Call.settling_of_release ht
    refine .inr (.inr ⟨k, rfl, htoken, _, getElem?_advance hi, ?_⟩)
    change EndsWell ⟨began, (k.step s.broker).progress.map .settling .settled⟩
    rw [hp]
    exact .on began _ rfl
  · refine .inr (.inl (hs.isOpen_of_isClosing i began c hi ?_))
    rw [Call.closing_of_lapse ht]
    simp [Call.isClosing, hr, ← hr']

/-- **A failure keeps the lock**: as long as no settlement under its token succeeds and its
receiver is open, a lock stays. -/
theorem Leads.mem_locks (h : s.Leads t) (hs : s.Reachable) (hl : l ∈ s.broker.locks)
    (hr : l.receiver = r.id) (ho : t.broker.isOpen r = true) (hn : s.NoneSucceeds t l.token) :
    l ∈ t.broker.locks := by
  suffices hall : ∀ u, s.Leads u → u.Leads t → l ∈ u.broker.locks from hall t h (.refl t)
  intro u hu
  induction hu with
  | refl => exact fun _ => hl
  | @step v u m hv hm ih =>
    intro hut
    have hvt := (Leads.step (.refl v) hm).trans hut
    have ih := ih hvt
    obtain ⟨i, began, c, -, hi, rfl⟩ | ⟨hrests, -⟩ := advances_or_rests hm
    · obtain hm | hc | ⟨k, rfl, htoken, x, hx, hwell⟩ := (hs.leads hv).mem_locks_advance ih hr hi
      · exact hm
      · rw [hvt.isOpen_eq_false hc] at ho
        contradiction
      · obtain ⟨y, hy, hwell⟩ := hut.endsWell hx hwell
        exact (hn v i began k hv hvt hi htoken y hy hwell).elim
    · exact hrests.broker.locks.mem_iff.mpr ih

/-- Under a token there is one lock. -/
theorem Reachable.lock?_of_mem (h : s.Reachable) (hl : l ∈ s.broker.locks)
    (hr : l.receiver = r.id) : s.broker.lock? r l.token = some l := by
  cases hf : s.broker.lock? r l.token with
  | none => exact (lock?_eq_none_iff.mp hf l hl rfl hr).elim
  | some k =>
    obtain ⟨hk, ht, -⟩ := mem_of_lock? hf
    rw [List.inj_on_of_nodup_map h.minted.distinct hk hl ht]

/-- A settlement that finds no fault and is left alone ends well where there is a lock. -/
theorem settles_of_lock? (hr : r ∈ s.receivers) {token : LockToken}
    (hl : s.broker.lock? r token = some l) (ho : s.broker.isOpen r = true) {v : Verdict}
    (hf : Settle.fault? s.broker v = none) :
    ∃ t u, s.after (.begin (.settle r token v)) = some t ∧
      Alone s.calls.length (.settled (.ok ())) t u := by
  obtain ⟨t, ht, result, u, hu, ha⟩ := answers hr token v
  obtain ⟨hmem, htoken, hid⟩ := mem_of_lock? hl
  rw [ha.ok_iff.mpr ⟨ho, hf, l, hmem, htoken, hid⟩] at hu
  exact ⟨t, u, ht, hu⟩

end Traffic

end PeekLock.Broker
