import PeekLock.Proofs.Remote.Stock

/-!
# PeekLock.Proofs.Remote.Queues

What settlements queue behind.

A lane with unsettled messages is reserved for settling them: no receive
has a claim on it, so nobody who comes to settle one of them waits there
behind a receive.  The list of the lanes is not reserved in that way: a
receive that opens another lane holds it until the link is there.
-/

namespace PeekLock.Remote.Traffic

open Identifier (counting)

variable {s : Traffic}

/-- A receive has no claim on a lane with unsettled messages. -/
theorem Sound.inFlight_eq_nil (h : s.Sound) {c : Receive} (hc : s.Carries (.receiving c))
    {k : Claim} (hk : k ∈ c.claims) {r p : Nat} (hs : k.site = .lane r p) :
    (s.client.lane r p).inFlight = [] := by
  obtain ⟨i, q, hi⟩ := hc
  have hfits : c.Fits s.client := h.fits i q _ hi
  rw [Receive.claims] at hk
  cases hp : c.point with
  | pulling position ticket link deadline =>
    obtain ⟨-, hempty⟩ := hfits.pulling position ticket link deadline hp
    rw [hp] at hk
    rw [List.mem_singleton.mp hk] at hs
    cases hs
    exact hempty
  | opening list ticket | linking list ticket problem =>
    rw [hp] at hk
    obtain rfl | hk := List.mem_cons.mp hk
    · cases hs
    · rw [List.mem_singleton.mp hk] at hs
      cases hs
  | surveying ticket | expanding ticket =>
    rw [hp] at hk
    rw [List.mem_singleton.mp hk] at hs
    cases hs
  | arriving =>
    rw [hp] at hk
    contradiction

/-- **A settlement at the lane of its message** never waits behind a receive. -/
theorem Reachable.unhindered (h : s.Reachable) {r p : Nat} {token : LockToken} {m : Incoming}
    (hm : (s.client.lane r p).message? token = some m) {c : Receive}
    (hc : s.Carries (.receiving c)) : ∀ k ∈ c.claims, k.site ≠ .lane r p := by
  intro k hk hs
  have hmem := Lane.mem_of_message? hm
  rw [h.sound.inFlight_eq_nil hc hk hs] at hmem
  contradiction

/-- A settlement that looks its lane up waits while a receive holds the list. -/
theorem Reachable.not_ready_of_holds (h : s.Reachable) {c : Settle} {k : Receive}
    (hc : s.Carries (.settling c)) (hk : s.Carries (.receiving k)) {number ticket list : Nat}
    (hf : c.point = .finding number ticket)
    (hl : .holding (.list c.receiver) list ∈ k.claims) : c.isReady s.client = false := by
  obtain ⟨i, q, hi⟩ := hc
  obtain ⟨j, q', hj⟩ := hk
  have hij : j ≠ i := by
    rintro rfl
    rw [hi] at hj
    cases hj
  have hkeeps := h.sound.keeps_of_getElem? hi
  have hclaims : (Call.settling c).claims = [.waiting (.list c.receiver) ticket .shared] := by
    simp only [Call.claims, Settle.claims, hf]
  rw [hclaims, List.singleton_append] at hkeeps
  have hother : .holding (.list c.receiver) list ∈
      (s.calls.eraseIdx i).flatMap Entry.claims :=
    List.mem_flatMap.mpr ⟨_, List.mem_eraseIdx_iff_getElem?.mpr ⟨j, hij, hj⟩, hl⟩
  refine Bool.eq_false_iff.mpr fun hready => ?_
  rw [Settle.isReady, hf] at hready
  have hheld := hkeeps.entered _ (List.mem_cons_of_mem _ hother) rfl
  have hlooks := hkeeps.inside_of_admits List.mem_cons_self hready
  have hsame := (hkeeps.gates (.list c.receiver)).eq_of_sole hheld rfl hlooks
  cases hsame

/-- A receive opens a second lane while the token of the first message is presented. -/
def whileOpening : List Move := [
  .begin (.createReceiver "orders"), .advance 0, .advance 0, .advance 0,
  .arrange .empty (Table.empty.put "orders" [default]),
  .begin (.receive 0 1 default), .advance 1, .advance 1, .advance 1,
  .begin (.receive 0 1 default), .advance 2, .advance 2, .advance 2, .advance 2,
  .begin (.settle 0 (lockToken counting 0 0) .complete), .advance 3]

/-- Whether the fourth call is a settlement that waits, though its message is there, and the
third is a receive that opens a second lane. -/
def queuesBehindOpening (s : Traffic) : Bool :=
  match (s.calls[3]? : Option Entry), (s.calls[2]? : Option Entry) with
  | some ⟨_, .on (.settling c)⟩, some ⟨_, .on (.receiving k)⟩ =>
    !c.isReady s.client && ((s.client.lane 0 0).message? c.token).isSome &&
      k.point = .linking 2 1 none
  | _, _ => false

/-- So a settlement can wait behind a receive, though its message is there. -/
theorem exists_waits_behind_opening : ∃ s, ({} : Traffic).run whileOpening = some s ∧
    ∃ (c : Settle) (k : Receive), s.Carries (.settling c) ∧ c.isReady s.client = false ∧
      ((s.client.lane 0 0).message? c.token).isSome ∧
      s.Carries (.receiving k) ∧ k.point = .linking 2 1 none := by
  have hrun : (({} : Traffic).run whileOpening).any queuesBehindOpening := by decide +kernel
  obtain ⟨s, hs, hp⟩ := (Option.any_eq_true _ _).mp hrun
  unfold queuesBehindOpening at hp
  split at hp
  · next q c q' k hc hk =>
    rw [Bool.and_eq_true, Bool.and_eq_true, Bool.not_eq_true', decide_eq_true_eq] at hp
    obtain ⟨⟨hready, hmessage⟩, hpoint⟩ := hp
    exact ⟨s, hs, c, k, ⟨3, q, hc⟩, hready, hmessage, ⟨2, q', hk⟩, hpoint⟩
  · contradiction

end PeekLock.Remote.Traffic
