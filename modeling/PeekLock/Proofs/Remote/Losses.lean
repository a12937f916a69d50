import PeekLock.Proofs.Remote.Custody

/-!
# PeekLock.Proofs.Remote.Losses

A settlement on the remote bus takes the lock with it.

The lane forgets a message before its link is asked to settle it, and does
not take it back when the link refuses.  So whatever the answer to the first
settlement is, the lock is lost to all that come after it.
-/

namespace PeekLock.Remote.Traffic

variable {s t u : Traffic} {h : Handout}

/-- The book of the settlements only grows. -/
theorem Leads.askings_prefix (hl : s.Leads t) : s.askings <+: t.askings := by
  refine hl.invariant (P := fun t => s.askings <+: t.askings) (List.prefix_refl _) ?_
  intro t u _ ht ih
  cases ht with
  | advances i q c => exact ih.trans (List.prefix_append _ _)
  | _ => exact ih

/-- A message that a link was asked to settle is not in stock any more. -/
theorem Balanced.not_stock_of_asked (hb : s.Balanced) (hm : h ∈ s.asked) :
    ∀ x ∈ s.client.stock h.receiver, x.token ≠ h.token := by
  intro x hx he
  have hd := hb.nodup_receiver h.receiver
  rw [List.map_append] at hd
  refine (List.nodup_append.mp hd).2.2 _ (List.mem_map_of_mem hx) _ (List.mem_map_of_mem ?_) he
  exact List.mem_filter.mpr ⟨hm, decide_eq_true rfl⟩

/-- What is in stock was handed out, and by that receiver. -/
theorem Balanced.of_stock (hb : s.Balanced) {r : Nat} (hm : h ∈ s.client.stock r) :
    h ∈ s.handouts ∧ h.receiver = r := by
  obtain ⟨lost, hp, -⟩ := hb.balance r
  have hm : h ∈ ofReceiver r s.handouts :=
    hp.mem_iff.mpr (List.mem_append_left _ (List.mem_append_left _ hm))
  obtain ⟨hm, hr⟩ := List.mem_filter.mp hm
  exact ⟨hm, of_decide_eq_true hr⟩

/-- Of those who have presented the token of a message since, one had a link asked. -/
def AskedSince (n : Nat) (h : Handout) (t : Traffic) : Prop :=
  h ∈ t.handouts ∧ ((t.client.receiver h.receiver).closed = false → ∀ (i : Nat) v o, n ≤ i →
    t.calls[i]? = some ⟨.settle h.receiver h.token v, .done o⟩ → h ∈ t.asked)

theorem AskedSince.turn {n : Nat} (ha : AskedSince n h s) (hs : s.Reachable) (ht : Turn s t) :
    AskedSince n h t := by
  obtain ⟨hh, ha⟩ := ha
  cases ht with
  | accepts q hr =>
    refine ⟨hh, fun ho i v o hn hi => ?_⟩
    obtain hi | ⟨-, hx⟩ := entry_of_accept hi
    · exact ha ho i v o hn hi
    · cases hx
  | advances i q c hi hr ho =>
    refine ⟨List.mem_append_left _ hh, fun hopen j v o hn hj => ?_⟩
    have hbefore := hs.sound.open_of_advance hi hopen
    suffices hm : h ∈ s.asked by
      rw [asked, advance, List.map_append]
      exact List.mem_append_left _ hm
    obtain ⟨-, hj⟩ | ⟨rfl, hx⟩ := entry_of_set hj
    · exact ha hbefore j v o hn hj
    · injection hx with hq hp
      subst hq
      obtain ⟨k, rfl, -⟩ := Call.eq_settling (hs.demanded.calls _ _ hi)
      exact hs.asked_of_done hh hbefore hi hp.symm
  | cutsShort i q c o hi ho =>
    refine ⟨hh, fun hopen j v o hn hj => ?_⟩
    rw [cutShort, Client.receiver_congr (c.receivers_drop s.client)] at hopen
    obtain ⟨-, hj⟩ | ⟨rfl, hx⟩ := entry_of_set hj
    · exact ha hopen j v o hn hj
    · injection hx with hq
      subst hq
      cases hs.demanded.calls _ _ hi
  | arranges => exact ⟨hh, ha⟩
  | waits => exact ⟨hh, ha⟩

/-- **The first answer takes the lock**: when somebody has got an answer to a token, whatever it
is, a link was asked to settle the message. -/
theorem Leads.asked_of_answer (hl : s.Leads t) (hs : s.Reachable) (hh : h ∈ s.handouts)
    (ho : (t.client.receiver h.receiver).closed = false) {i : Nat} {v : Verdict} {o : Outcome}
    (hn : s.calls.length ≤ i)
    (hi : t.calls[i]? = some ⟨.settle h.receiver h.token v, .done o⟩) : h ∈ t.asked := by
  have hall : AskedSince s.calls.length h t := by
    refine hl.invariant (P := AskedSince s.calls.length h) ⟨hh, fun _ i v o hn hi => ?_⟩
      fun u w hu hw ha => ha.turn (hs.leads hu) hw
    obtain ⟨hlt, -⟩ := List.getElem?_eq_some_iff.mp hi
    omega
  exact hall.2 ho i v o hn hi

/-- **Everybody else has lost it**: once a link was asked to settle a message, nobody who presents
its token anew can have it settled. -/
theorem Leads.lost_of_asked (hl : s.Leads t) (hs : s.Reachable) (hm : h ∈ s.asked)
    (ho : (t.client.receiver h.receiver).closed = false) {i : Nat} {v : Verdict} {o : Outcome}
    (hn : s.calls.length ≤ i)
    (hi : t.calls[i]? = some ⟨.settle h.receiver h.token v, .done o⟩) :
    t.askingsBy i = [] ∧ o = .settled (.error (.lockLost h.token.text)) := by
  obtain ⟨a, ha, rfl⟩ := List.mem_map.mp hm
  have hone := (hs.leads hl).balanced.askingsFor_eq (hl.askings_prefix.subset ha)
  obtain ⟨b, hb, hc, -⟩ | hlost := (hs.leads hl).answerable.answer hi ho
  · -- the one call that had a link asked was there before
    rw [hone] at hb
    obtain ⟨r, token, v', p, -, hcall⟩ := hs.answerable.asked a ha
    obtain ⟨hlt, -⟩ := List.getElem?_eq_some_iff.mp hcall
    rw [List.mem_singleton.mp hb] at hc
    omega
  · exact hlost

end PeekLock.Remote.Traffic
