import PeekLock.Proofs.Broker.Transfers

/-!
# PeekLock.Proofs.Broker.Tokens

The tokens of the locks: every lock has a token that was drawn from the
supply of identifiers, and no two locks share one.

So releasing the lock of a token drops that lock and no other.
-/

namespace PeekLock.Broker

/-- The tokens of the locks have been generated, each for one lock. -/
structure Minted (b : Broker) : Prop where
  distinct : (b.locks.map (·.token)).Nodup
  drawn : ∀ l ∈ b.locks, ∃ k < b.issued, l.token = ⟨b.supply.nth k⟩

/-- The generated tokens of a stretch of the supply are all different. -/
theorem nodup_tokens (supply : Identifier.Supply) (n k : Nat) :
    ((List.range' n k).map fun i => (⟨supply.nth i⟩ : LockToken)).Nodup := by
  rw [List.nodup_iff_pairwise_ne, List.pairwise_map]
  refine List.Pairwise.imp (fun {i j} hij ht => ?_) List.pairwise_lt_range'
  have := supply.nth_inj (congrArg LockToken.text ht)
  omega

theorem token_of_mem_lockAll {supply : Identifier.Supply} {r : Receiver} {n : Nat}
    {copies : List Copy} {l : Lock} (h : l ∈ lockAll supply r n copies) :
    ∃ k, n ≤ k ∧ k < n + copies.length ∧ l.token = ⟨supply.nth k⟩ := by
  have ht : l.token ∈ (lockAll supply r n copies).map (·.token) := List.mem_map_of_mem h
  rw [map_token_lockAll, List.mem_map] at ht
  obtain ⟨k, hk, hl⟩ := ht
  rw [List.mem_range'_1] at hk
  exact ⟨k, hk.1, hk.2, hl.symm⟩

/-- A lock that was not there has a token that was not drawn before. -/
theorem fresh_of_mem_locks_apply {b : Broker} {t : Transfer} {l : Lock}
    (h : l ∈ (t.apply b).locks) :
    l ∈ b.locks ∨ ∃ k, b.issued ≤ k ∧ l.token = ⟨b.supply.nth k⟩ := by
  refine (Transfer.mem_locks_or_deliveries h).imp_right fun hl => ?_
  cases t with
  | take r most =>
    obtain ⟨k, hk, -, ht⟩ := token_of_mem_lockAll hl
    exact ⟨k, hk, ht⟩
  | _ => contradiction

namespace Minted

theorem take {b : Broker} (h : Minted b) (r : Receiver) (most : Nat) :
    Minted (b.take r most).2 := by
  have hi : (b.take r most).2.issued = b.issued + ((b.queue r.entity).take most).length := by
    rw [← length_lockAll b.supply r b.issued]
    rfl
  constructor
  · rw [locks_take, List.map_append, List.nodup_append]
    refine ⟨h.distinct, ?_, ?_⟩
    · rw [map_token_lockAll]
      exact nodup_tokens _ _ _
    · intro t ht u hu he
      obtain ⟨l, hl, rfl⟩ := List.mem_map.mp ht
      obtain ⟨l', hl', rfl⟩ := List.mem_map.mp hu
      obtain ⟨k, hk, hlk⟩ := h.drawn l hl
      obtain ⟨k', hk', -, hlk'⟩ := token_of_mem_lockAll hl'
      rw [hlk, hlk'] at he
      have := b.supply.nth_inj (congrArg LockToken.text he)
      omega
  · intro l hl
    rw [locks_take, List.mem_append] at hl
    rw [hi]
    obtain hl | hl := hl
    · obtain ⟨k, hk, ht⟩ := h.drawn l hl
      exact ⟨k, by omega, ht⟩
    · obtain ⟨k, -, hk, ht⟩ := token_of_mem_lockAll hl
      exact ⟨k, hk, ht⟩

/-- Dropping locks leaves good tokens. -/
theorem of_sublist {b after : Broker} (h : Minted b) (hl : after.locks.Sublist b.locks)
    (hs : after.supply = b.supply) (hi : b.issued ≤ after.issued) : Minted after := by
  constructor
  · exact h.distinct.sublist (hl.map _)
  · intro l hm
    obtain ⟨k, hk, ht⟩ := h.drawn l (hl.subset hm)
    rw [hs]
    exact ⟨k, Nat.lt_of_lt_of_le hk hi, ht⟩

theorem apply {b : Broker} (h : Minted b) (t : Transfer) : Minted (t.apply b) := by
  cases t with
  | nothing => exact h
  | arrival target m =>
    simp only [Transfer.apply]
    rw [enqueue_frame]
    exact h.of_sublist (List.Sublist.refl _) rfl (Nat.le_refl _)
  | take r most => exact h.take r most
  | release l => exact h.of_sublist List.filter_sublist rfl (Nat.le_refl _)
  | completion l => exact h.of_sublist (List.Sublist.refl _) rfl (Nat.le_refl _)
  | restoration l => exact h.of_sublist (List.Sublist.refl _) rfl (Nat.le_refl _)
  | lapse r =>
    simp only [Transfer.apply]
    rw [lapse_eq]
    exact h.of_sublist List.filter_sublist rfl (Nat.le_refl _)

theorem of_keepsCopies {b after : Broker} (h : Minted b) (hk : KeepsCopies b after) :
    Minted after := by
  constructor
  · exact (hk.locks.map _).nodup_iff.mpr h.distinct
  · intro l hl
    obtain ⟨k, hlt, ht⟩ := h.drawn l (hk.locks.mem_iff.mp hl)
    rw [hk.supply]
    exact ⟨k, Nat.lt_of_lt_of_le hlt hk.issued, ht⟩

theorem step {b : Broker} (h : Minted b) (now : Nat) (c : Call) : Minted (c.step now b).state :=
  (h.apply (c.transfer b)).of_keepsCopies (c.step_keepsCopies now b)

end Minted

end PeekLock.Broker
