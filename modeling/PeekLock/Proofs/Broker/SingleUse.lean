import PeekLock.Proofs.Broker.Conservation
import PeekLock.Proofs.Broker.Settlements

/-!
# PeekLock.Proofs.Broker.SingleUse

A lock token is good for one settlement.

The settlement that takes a lock away has spent its token: the token is
never drawn again, so no settlement finds a lock under it (`Spent`), and
that lasts in whatever comes after.
-/

namespace PeekLock.Broker.Traffic

open Identifier (counting)

/-! ## Spent tokens -/

/-- No step takes an identifier back. -/
theorem issued_le_advance (s : Traffic) (i began : Nat) (c : Call) :
    s.broker.issued ≤ (s.advance i began c).broker.issued :=
  Nat.le_trans (issued_le_apply _ _) (c.step_keepsCopies s.now s.broker).issued

/-- A token is spent, and that settlement has it. -/
structure Spent (s : Traffic) (token : LockToken) (i : Nat) : Prop where
  drawn : ∃ k < s.broker.issued, token = ⟨s.broker.supply.nth k⟩
  unlocked : ∀ l ∈ s.broker.locks, l.token ≠ token
  /-- No other settlement has released a lock under it. -/
  alone : ∀ (j began : Nat) (d : Settle), s.calls[j]? = some ⟨began, .on (.settling d)⟩ →
    d.token = token → d.point.hasReleased = true → j = i

namespace Spent

variable {s : Traffic} {token : LockToken} {i : Nat}

/-- Locks that come about have other tokens. -/
theorem unlocked_advance (h : s.Spent token i) (j began : Nat) (c : Call) :
    ∀ l ∈ (s.advance j began c).broker.locks, l.token ≠ token := by
  intro l hl ht
  have hl' : l ∈ ((c.transfer s.broker).apply s.broker).locks :=
    (c.step_keepsCopies s.now s.broker).locks.mem_iff.mp hl
  obtain hl' | ⟨k, hk, hlk⟩ := fresh_of_mem_locks_apply hl'
  · exact h.unlocked l hl' ht
  · obtain ⟨n, hn, hnt⟩ := h.drawn
    have := s.broker.supply.nth_inj (congrArg LockToken.text (hlk.symm.trans (ht.trans hnt)))
    omega

theorem drawn_advance (h : s.Spent token i) (j began : Nat) (c : Call) :
    ∃ k < (s.advance j began c).broker.issued,
      token = ⟨(s.advance j began c).broker.supply.nth k⟩ := by
  obtain ⟨k, hk, ht⟩ := h.drawn
  rw [supply_advance]
  exact ⟨k, Nat.lt_of_lt_of_le hk (issued_le_advance s j began c), ht⟩

/-- A spent token stays spent: to release a lock under it, a call would have to find one. -/
theorem advance (h : s.Spent token i) {j began : Nat} {c : Call}
    (hj : s.calls[j]? = some ⟨began, .on c⟩) : (s.advance j began c).Spent token i where
  drawn := h.drawn_advance j began c
  unlocked := h.unlocked_advance j began c
  alone := by
    intro n began' d hn ht hd
    obtain ⟨-, hn⟩ | ⟨rfl, rfl, k, rfl, hstep⟩ := settling_of_advance hj hn
    · exact h.alone n began' d hn ht hd
    · cases Settle.step_on hstep with
      | passed => contradiction
      | released l _ hl hlt => exact (h.unlocked l hl (hlt.trans ht)).elim
      | recorded l hp => exact h.alone j began' k hj ht (by rw [hp]; rfl)

theorem of_frame {t : Traffic} (h : s.Spent token i) (hk : KeepsCopies s.broker t.broker)
    (calls : ∀ (j began : Nat) (d : Settle), t.calls[j]? = some ⟨began, .on (.settling d)⟩ →
      d.point.hasReleased = true → s.calls[j]? = some ⟨began, .on (.settling d)⟩) :
    t.Spent token i where
  drawn := by
    obtain ⟨k, hlt, ht⟩ := h.drawn
    rw [hk.supply]
    exact ⟨k, Nat.lt_of_lt_of_le hlt hk.issued, ht⟩
  unlocked l hl := h.unlocked l (hk.locks.mem_iff.mp hl)
  alone j began d hj ht hd := h.alone j began d (calls j began d hj hd) ht hd

end Spent

/-- A settlement that has begun after a state has not released a lock. -/
theorem settling_released_of_accept {s : Traffic} {q : Request} {j began : Nat} {d : Settle}
    (h : (s.accept q).calls[j]? = some ⟨began, .on (.settling d)⟩)
    (hd : d.point.hasReleased = true) : s.calls[j]? = some ⟨began, .on (.settling d)⟩ := by
  refine (settling_of_accept h).resolve_right ?_
  rintro ⟨-, hp⟩
  rw [hp] at hd
  contradiction

/-- Whatever happens, a spent token stays spent. -/
theorem Leads.spent {s t : Traffic} (h : s.Leads t) {token : LockToken} {i : Nat}
    (hs : s.Spent token i) : t.Spent token i := by
  refine h.invariant (P := fun t => t.Spent token i) hs ?_ ?_ ?_ ?_ ?_
  · exact fun t q _ ih => ih.of_frame (.refl _) fun _ _ _ => settling_released_of_accept
  · exact fun t j began c hj _ ih => ih.advance hj
  · exact fun t j began c hj ih =>
      ih.of_frame (c.drop_keepsCopies t.broker) fun _ _ _ hn _ => call_of_dropReceive hj hn
  · exact fun t ms ih => ih.of_frame (.refl _) fun _ _ _ hn _ => hn
  · exact fun t locks hp ih =>
      ih.of_frame ⟨fun _ => rfl, hp, rfl, rfl, rfl, rfl, Nat.le_refl _⟩ fun _ _ _ hn _ => hn

/-- Every settlement that has released its lock has spent the token. -/
def TokensSpent (s : Traffic) : Prop :=
  ∀ i began c, s.calls[i]? = some ⟨began, .on (.settling c)⟩ → c.point.hasReleased = true →
    s.Spent c.token i

/-- The step that releases a lock spends its token. -/
theorem spent_of_release {s : Traffic} (hb : Minted s.broker) (h : s.TokensSpent)
    {i began : Nat} {c : Settle} {l : Lock}
    (hi : s.calls[i]? = some ⟨began, .on (.settling c)⟩) (hl : l ∈ s.broker.locks)
    (ht : l.token = c.token) (hstate : (c.step s.broker).state = s.broker.unlock c.token) :
    (s.advance i began (.settling c)).Spent c.token i where
  drawn := by
    obtain ⟨k, hk, hlk⟩ := hb.drawn l hl
    rw [supply_advance]
    exact ⟨k, Nat.lt_of_lt_of_le hk (issued_le_advance s i began _), ht.symm.trans hlk⟩
  unlocked := by
    intro k hk
    have hk' : k ∈ (s.broker.unlock c.token).locks := hstate ▸ hk
    simpa using (List.mem_filter.mp hk').2
  alone := by
    intro j began' d hj htoken hd
    obtain ⟨-, hj⟩ | ⟨rfl, -, -⟩ := settling_of_advance hi hj
    · have hspent := h j began' d hj hd
      exact (hspent.unlocked l hl (ht.trans htoken.symm)).elim
    · rfl

theorem TokensSpent.advance {s : Traffic} (hb : Minted s.broker) (h : s.TokensSpent)
    {i began : Nat} {c : Call} (hi : s.calls[i]? = some ⟨began, .on c⟩) :
    (s.advance i began c).TokensSpent := by
  intro j began' d hj hd
  obtain ⟨-, hj⟩ | ⟨rfl, rfl, k, rfl, hstep⟩ := settling_of_advance hi hj
  · exact (h j began' d hj hd).advance hi
  · cases Settle.step_on hstep with
    | passed => contradiction
    | released l _ hl hlt _ hstate => exact spent_of_release hb h hi hl hlt hstate
    | recorded l hp => exact (h i began' k hi (by rw [hp]; rfl)).advance hi

/-- In every traffic that can be reached, what was released is spent. -/
theorem Reachable.tokensSpent {s : Traffic} (h : s.Reachable) : s.TokensSpent := by
  suffices hall : Minted s.broker ∧ s.TokensSpent from hall.2
  obtain ⟨supply, h⟩ := h
  refine h.invariant (P := fun s => Minted s.broker ∧ s.TokensSpent) ?_ ?_ ?_ ?_ ?_ ?_
  · exact ⟨Reachable.minted ⟨supply, .refl _⟩, fun i began c hi => by contradiction⟩
  · refine fun s q _ ih => ⟨ih.1, fun i began c hi hc => ?_⟩
    exact (ih.2 i began c (settling_released_of_accept hi hc) hc).of_frame (.refl _)
      fun _ _ _ => settling_released_of_accept
  · exact fun s i began c hi _ ih => ⟨ih.1.step s.now c, ih.2.advance ih.1 hi⟩
  · refine fun s i began c hi ih =>
      ⟨ih.1.of_keepsCopies (c.drop_keepsCopies s.broker), fun j began' d hj hd => ?_⟩
    exact (ih.2 j began' d (call_of_dropReceive hi hj) hd).of_frame
      (c.drop_keepsCopies s.broker) fun _ _ _ hn _ => call_of_dropReceive hi hn
  · exact fun s ms ih => ⟨ih.1, fun i began c hi hc =>
      (ih.2 i began c hi hc).of_frame (.refl _) fun _ _ _ hn _ => hn⟩
  · refine fun s locks hp ih => ?_
    have hk : KeepsCopies s.broker (s.rearrange locks).broker :=
      ⟨fun _ => rfl, hp, rfl, rfl, rfl, rfl, Nat.le_refl _⟩
    exact ⟨ih.1.of_keepsCopies hk, fun i began c hi hc =>
      (ih.2 i began c hi hc).of_frame hk fun _ _ _ hn _ => hn⟩

/-- A settlement that ends well spends its token for every other one. -/
theorem Reachable.not_ok_of_spent {s t u v : Traffic} {i j : Nat} {c d : Settle}
    (hs : s.Reachable) (hi : s.Ends t i c (.ok ())) (htu : t.Leads u)
    (hj : u.Ends v j d (.ok ())) : d.token ≠ c.token := by
  intro htoken
  -- both have released a lock under the token, which the first has spent
  have hc := Settle.step_ok hi.step.2
  have hd := Settle.step_ok hj.step.2
  obtain ⟨m, began, hci, hm, hti⟩ := hi
  obtain ⟨-, began', hdj, -, -⟩ := hj
  have hspent : u.Spent c.token i :=
    (((Leads.refl s).step hm).trans htu).spent (hs.tokensSpent i began c hci hc)
  have hij : j = i := hspent.alone j began' d hdj htoken hd
  rw [hij, htu.getElem?_done hti] at hdj
  cases hdj

/-! ## The table of locks -/

/-- Every lock is on a copy that carries its token. -/
theorem Reachable.labelled {s : Traffic} (h : s.Reachable) :
    ∀ l ∈ s.broker.locks, l.copy.message.lockToken = l.token := by
  obtain ⟨supply, h⟩ := h
  induction h with
  | refl => exact fun l hl => by contradiction
  | @step s t m _ hm ih =>
    intro l hl
    obtain ⟨i, began, c, -, -, rfl⟩ | ⟨hrests, -⟩ := advances_or_rests hm
    · obtain hl | ⟨-, -, -, -, a, -, hcopy⟩ :=
        mem_locks_apply ((c.step_keepsCopies s.now s.broker).locks.mem_iff.mp hl)
      · exact ih l hl
      · rw [hcopy]
        rfl
    · exact ih l (hrests.broker.locks.mem_iff.mp hl)

/-- No two locks are on the same copy. -/
theorem Ledger.nodup_locked {s : Traffic} (h : s.Ledger) :
    (s.broker.locks.map (·.copy.serial)).Nodup := by
  rw [List.nodup_iff_count_le_one]
  intro n
  by_cases hn : n ∈ s.broker.locks.map (·.copy.serial)
  · obtain ⟨l, hl, rfl⟩ := List.mem_map.mp hn
    obtain ⟨a, ha, -, hla⟩ := h.traced l.entity l.copy (.locked l hl rfl rfl)
    have hsame : (s.broker.locks.map (·.copy.serial)).count l.copy.serial =
        s.broker.locked a.entity a.copy.serial := by
      rw [List.count, List.countP_map, locked]
      refine List.countP_congr fun k hk => ?_
      obtain ⟨a', ha', he, hka⟩ := h.traced k.entity k.copy (.locked k hk rfl rfl)
      simp only [Function.comp_apply, beq_iff_eq, Lock.isOn, Bool.and_eq_true, decide_eq_true_eq]
      refine ⟨fun hkl => ?_, fun hka => hka.2.trans hla.serial.symm⟩
      have hks : k.copy.serial = a.copy.serial := hkl.trans hla.serial
      have haa : a' = a := h.eq_of_serial ha' ha (hka.serial.symm.trans hks)
      exact ⟨by rw [← he, haa], hks⟩
    have hone := h.balanced a ha
    unfold balance at hone
    omega
  · rw [List.count_eq_zero.mpr hn]
    exact Nat.zero_le 1

/-- Lock tokens are exclusive and single-use. -/
structure SingleUse (s : Traffic) : Prop where
  /-- A settlement that nothing interrupts ends well if its receiver is open, no fault is
  set and the receiver holds a lock under the token; otherwise it says what is missing,
  and changes nothing. -/
  answered : ∀ r ∈ s.receivers, ∀ token verdict, s.Answers r token verdict
  /-- Among other calls, a settlement that ends well was let through, and has found a lock. -/
  earned : ∀ t i c, s.Ends t i c (.ok ()) → s.Passed i c ∧ s.Released i c
  /-- One that ends with an error says what was missing when it asked. -/
  refused : ∀ t i c e, s.Ends t i c (.error e) →
    Settle.Refused s.broker c e ∧ (c.point ≠ .readingFault → s.Passed i c)
  /-- No step of it changes anything. -/
  unchanged : ∀ t i c e, s.Ends t i c (.error e) → ∀ (u v : Traffic) began d,
    u.calls[i]? = some ⟨began, .on (.settling d)⟩ → u.after (.advance i) = some v →
      v.Leads t → v.broker = u.broker
  /-- After one has ended well, none with the same token ends well, whatever happens. -/
  spent : ∀ t i c, s.Ends t i c (.ok ()) → ∀ u v j d result, t.Leads u →
    u.Ends v j d result → d.token = c.token → result ≠ .ok ()
  distinct : (s.broker.locks.map (·.token)).Nodup
  labelled : ∀ l ∈ s.broker.locks, l.copy.message.lockToken = l.token
  apart : (s.broker.locks.map (·.copy.serial)).Nodup

/-- **A token settles once**: in any order of calls, a settlement ends well only
if its receiver holds a lock under the token, and then no other ever does; a
refused one changes nothing. -/
theorem Reachable.singleUse {s : Traffic} (h : s.Reachable) : s.SingleUse where
  answered r hr token verdict := answers hr token verdict
  earned t i c he := by
    have hc := Settle.step_ok he.step.2
    obtain ⟨-, began, hi, -, -⟩ := he
    obtain ⟨hpassed, hreleased⟩ := h.earned hi
    refine ⟨hpassed fun hp => ?_, hreleased hc⟩
    rw [hp] at hc
    contradiction
  refused t i c e he := by
    obtain ⟨-, began, hi, -, -⟩ := id he
    exact ⟨(Settle.step_error he.step.2).2, (h.earned hi).1⟩
  unchanged t i c e he u v began d hu hm hvt := by
    obtain ⟨-, began', -, -, ht⟩ := he
    exact hvt.broker_of_refused hu hm ht
  spent t i c he u v j d result htu hj htoken hok :=
    h.not_ok_of_spent he htu (hok ▸ hj) htoken
  distinct := h.minted.distinct
  labelled := h.labelled
  apart := h.ledger.nodup_locked

/-- A message is received, abandoned, and received again. -/
def redelivered : List Move := [
  .begin (.createReceiver "orders"), .advance 0, .advance 0,
  .begin (.send "orders" [1] { messageId := some "a" }), .advance 1, .advance 1, .advance 1,
  .begin (.receive ⟨0, "orders"⟩ 1 .zero), .advance 2, .advance 2, .advance 2, .advance 2,
  .begin (.settle ⟨0, "orders"⟩ ⟨counting.nth 0⟩ .abandon),
  .advance 3, .advance 3, .advance 3, .advance 3,
  .begin (.receive ⟨0, "orders"⟩ 1 .zero), .advance 4, .advance 4, .advance 4, .advance 4]

theorem singleUse_redelivered : ∃ s, run {} redelivered = some s ∧
    s.broker.abandoned.map (·.serial) = [0] ∧
    s.broker.locks.map (fun l => (l.token, l.copy.serial)) = [(⟨counting.nth 1⟩, 0)] ∧
    s.SingleUse := by
  have hrun : (run {} redelivered).any fun s =>
      s.broker.abandoned.map (·.serial) = [0] ∧
      s.broker.locks.map (fun l => (l.token, l.copy.serial)) = [(⟨counting.nth 1⟩, 0)] := by
    decide
  obtain ⟨s, hs, hp⟩ := (Option.any_eq_true _ _).mp hrun
  obtain ⟨habandoned, hlocks⟩ := of_decide_eq_true hp
  exact ⟨s, hs, habandoned, hlocks, Reachable.singleUse (reachable_of_run hs)⟩

end PeekLock.Broker.Traffic
