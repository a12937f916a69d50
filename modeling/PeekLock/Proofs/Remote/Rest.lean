import PeekLock.Proofs.Remote.Soundness

/-!
# PeekLock.Proofs.Remote.Rest

The remote bus comes to rest.

Whatever is on its way can be brought to its end, with nothing else begun
and nothing dropped: whoever waits for a gate waits for somebody who can
go on (`Sound.exists_ready`), and each step leaves fewer steps to take.
-/

namespace PeekLock.Remote

/-! ## How far a call has to go -/

/-- How many steps a call has left, without those of a close at its lanes. -/
def Call.stages : Call → Nat
  | .sending c => match c with
    | .buildingOne .. | .buildingBatch .. => 4
    | .creating .. => 3
    | .sending .. => 2
    | .disposing .. => 1
  | .opening c => match c with
    | .checking _ => 3
    | .opening .. => 2
    | .linking .. => 1
  | .receiving c => match c.point with
    | .arriving => 6
    | .surveying _ => 5
    | .expanding _ => 4
    | .opening .. => 3
    | .linking .. => 2
    | .pulling .. => 1
  | .settling c => match c.point with
    | .arriving => 4
    | .finding .. => 3
    | .entering .. => 2
    | .asking .. => 1
  | .closing c => match c.point with
    | .marking => 2
    | .taking _ => 1
    | .entering .. | .disposing .. => 0

/-- How many steps a close has left at its lanes. -/
def Call.visits : Call → Nat
  | .closing c => match c.point with
    | .entering _ _ rest _ => 2 * rest.length + 2
    | .disposing _ _ _ rest _ => 2 * rest.length + 1
    | _ => 0
  | _ => 0

/-- What is left of a call that may have ended. -/
def leftOf (f : Call → Nat) : Progress Call Outcome → Nat
  | .on c => f c
  | .done _ => 0

/-- Less is left than of a call. -/
def Call.Shrinks (c : Call) (p : Progress Call Outcome) : Prop :=
  leftOf stages p < c.stages ∨ leftOf stages p = c.stages ∧ leftOf visits p < c.visits

theorem Send.shrinks (s : Client) (c : Send) :
    (Call.sending c).Shrinks ((c.step s).progress.map .sending .sent) := by
  refine .inl ?_
  cases c with
  | disposing => exact Nat.one_pos
  | _ =>
    simp only [Send.step]
    split <;> exact Nat.le_of_ble_eq_true rfl

theorem Open.shrinks (s : Client) (c : Open) :
    (Call.opening c).Shrinks ((c.step s).progress.map .opening .opened) := by
  refine .inl ?_
  cases c with
  | opening => exact Nat.le_of_ble_eq_true rfl
  | _ =>
    simp only [Open.step]
    split <;> exact Nat.le_of_ble_eq_true rfl

/-- A receive that has a lane has at most one step left. -/
theorem Receive.stages_pull (now : Nat) (s : Client) (c : Receive) (logs : List LogRecord)
    (position ticket : Nat) :
    leftOf Call.stages
      ((c.pull now s logs position ticket).progress.map .receiving .received) ≤ 1 := by
  rw [Receive.pull]
  split
  · exact Nat.zero_le _
  · split
    · exact Nat.zero_le _
    · exact Nat.le_refl _

theorem Receive.shrinks (now : Nat) (s : Client) (c : Receive) :
    (Call.receiving c).Shrinks ((c.step now s).progress.map .receiving .received) := by
  refine .inl ?_
  obtain ⟨r, most, timeout, point⟩ := c
  cases point with
  | surveying list =>
    simp only [Receive.step]
    split
    · exact Nat.lt_of_le_of_lt (Receive.stages_pull ..) (Nat.le_of_ble_eq_true rfl)
    · exact Nat.le_of_ble_eq_true rfl
  | opening => exact Nat.le_of_ble_eq_true rfl
  | linking list connection problem =>
    simp only [Receive.step]
    split
    · exact Nat.le_of_ble_eq_true rfl
    · exact Nat.lt_of_le_of_lt (Receive.stages_pull ..) (Nat.le_of_ble_eq_true rfl)
  | pulling => exact Nat.one_pos
  | _ =>
    simp only [Receive.step]
    split <;> exact Nat.le_of_ble_eq_true rfl

theorem Settle.shrinks (s : Client) (c : Settle) :
    (Call.settling c).Shrinks ((c.step s).progress.map .settling .settled) := by
  refine .inl ?_
  obtain ⟨r, token, verdict, point⟩ := c
  cases point with
  | arriving | entering =>
    simp only [Settle.step]
    split
    · exact Nat.le_of_ble_eq_true rfl
    · split <;> exact Nat.le_of_ble_eq_true rfl
  | finding number list =>
    simp only [Settle.step]
    split <;> exact Nat.le_of_ble_eq_true rfl
  | asking => exact Nat.one_pos

/-- A close that turns to some lanes. -/
theorem Close.visits_goOn (s : Client) (c : Close) (tally : Close.Tally) (lanes : List Nat) :
    leftOf Call.stages ((c.goOn s tally lanes).progress.map .closing .closed) = 0 ∧
      leftOf Call.visits ((c.goOn s tally lanes).progress.map .closing .closed) ≤
        2 * lanes.length := by
  cases lanes with
  | nil => exact ⟨rfl, Nat.zero_le _⟩
  | cons position rest => exact ⟨rfl, Nat.le_refl _⟩

theorem Close.shrinks (s : Client) (c : Close) :
    (Call.closing c).Shrinks ((c.step s).progress.map .closing .closed) := by
  obtain ⟨r, point⟩ := c
  cases point with
  | marking =>
    refine .inl ?_
    simp only [Close.step]
    split <;> exact Nat.le_of_ble_eq_true rfl
  | taking list =>
    refine .inl ?_
    simp only [Close.step]
    rw [(Close.visits_goOn ..).1]
    exact Nat.one_pos
  | entering position ticket rest tally =>
    refine .inr ?_
    simp only [Close.step]
    split
    · obtain ⟨hs, hv⟩ := Close.visits_goOn
        (((s.emptied r position).leave (.lane r position) ticket))
        ⟨r, .entering position ticket rest tally⟩
        { tally with unsettled := tally.unsettled + (s.lane r position).inFlight.length } rest
      exact ⟨hs, Nat.lt_of_le_of_lt hv (Nat.lt_add_of_pos_right (by decide))⟩
    · exact ⟨rfl, Nat.lt_succ_self _⟩
  | disposing position ticket problem rest tally =>
    refine .inr ?_
    simp only [Close.step]
    obtain ⟨hs, hv⟩ := Close.visits_goOn (s.leave (.lane r position) ticket)
      ⟨r, .disposing position ticket problem rest tally⟩
      { tally with result := Close.firstFailure tally.result problem } rest
    exact ⟨hs, Nat.lt_succ_of_le hv⟩

/-- **Each step leaves less to do.** -/
theorem Call.shrinks_step (now : Nat) (s : Client) (c : Call) :
    c.Shrinks (c.step now s).progress := by
  cases c with
  | sending c => exact Send.shrinks s c
  | opening c => exact Open.shrinks s c
  | receiving c => exact Receive.shrinks now s c
  | settling c => exact Settle.shrinks s c
  | closing c => exact Close.shrinks s c

/-! ## Who can go on -/

/-- Whether a call can go on, at once or after some time. -/
def Call.CanGoOn (now : Nat) (s : Client) (c : Call) : Prop :=
  ∃ ms, c.isReady (now + ms) s = true

/-- What a call has a claim on, and what keeps it from going on. -/
inductive Call.Stance (now : Nat) (s : Client) (c : Call) : List Claim → Prop where
  /-- Nothing: it waits for no gate. -/
  | goes (claims : List Claim) (hg : c.CanGoOn now s) : Stance now s c claims
  | waits (k : Claim) (hg : s.admits k.site k.ticket.number = true → c.CanGoOn now s) :
    Stance now s c [k]
  /-- It holds the list of the lanes and waits for the connection. -/
  | opens (k j : Claim) (hk : k.site ≠ .connection) (hj : j.site = .connection)
    (hg : s.admits j.site j.ticket.number = true → c.CanGoOn now s) : Stance now s c [k, j]

theorem Call.stance (now : Nat) (s : Client) (c : Call) : c.Stance now s c.claims := by
  cases c with
  | sending c =>
    cases c with
    | creating => exact .waits _ fun ha => ⟨0, ha⟩
    | _ => exact .goes _ ⟨0, rfl⟩
  | opening c =>
    cases c with
    | opening => exact .waits _ fun ha => ⟨0, ha⟩
    | _ => exact .goes _ ⟨0, rfl⟩
  | receiving c =>
    obtain ⟨r, most, timeout, point⟩ := c
    cases point with
    | surveying | expanding => exact .waits _ fun ha => ⟨0, ha⟩
    | opening => exact .opens _ _ nofun rfl fun ha => ⟨0, ha⟩
    | pulling position ticket link deadline =>
      -- the receive ends when its time is over, if not before
      refine .goes _ ⟨deadline, Bool.or_eq_true_iff.mpr (.inr ?_)⟩
      exact decide_eq_true (Nat.le_add_left _ _)
    | _ => exact .goes _ ⟨0, rfl⟩
  | settling c =>
    obtain ⟨r, token, verdict, point⟩ := c
    cases point with
    | finding | entering => exact .waits _ fun ha => ⟨0, ha⟩
    | _ => exact .goes _ ⟨0, rfl⟩
  | closing c =>
    obtain ⟨r, point⟩ := c
    cases point with
    | taking | entering => exact .waits _ fun ha => ⟨0, ha⟩
    | _ => exact .goes _ ⟨0, rfl⟩

/-- Whoever is inside a gate goes on, or holds a list and waits for the connection. -/
theorem Call.Stance.of_inside {now : Nat} {s : Client} {c : Call} {claims : List Claim}
    (h : c.Stance now s claims) {k : Claim} (hk : k ∈ claims)
    (hi : k.ticket ∈ (s.gate k.site).inside) :
    c.CanGoOn now s ∨
      k.site ≠ .connection ∧ ∃ j ∈ claims, j.site = .connection := by
  have hadmits : s.admits k.site k.ticket.number = true :=
    List.any_eq_true.mpr ⟨k.ticket, hi, decide_eq_true rfl⟩
  cases h with
  | goes _ hg => exact .inl hg
  | waits k' hg =>
    obtain rfl := List.mem_singleton.mp hk
    exact .inl (hg hadmits)
  | opens k' j hs hj hg =>
    obtain rfl | hk := List.mem_cons.mp hk
    · exact .inr ⟨hs, j, List.mem_cons_of_mem _ List.mem_cons_self, hj⟩
    · obtain rfl := List.mem_singleton.mp hk
      exact .inl (hg hadmits)

namespace Traffic

variable {s t : Traffic}

/-- Where somebody waits, somebody is inside. -/
theorem Sound.exists_inside (h : s.Sound) {c : Call} (hc : s.Carries c) {k : Claim}
    (hk : k ∈ c.claims) :
    ∃ c', s.Carries c' ∧ ∃ k' ∈ c'.claims, k'.site = k.site ∧
      k'.ticket ∈ (s.client.gate k'.site).inside := by
  obtain ⟨i, q, hi⟩ := hc
  have hkeeps := h.keeps.gates k.site
  have hmem : k ∈ s.calls.flatMap Entry.claims :=
    List.mem_flatMap.mpr ⟨_, List.mem_of_getElem? hi, hk⟩
  have hne : (s.client.gate k.site).inside ≠ [] := fun hn => by
    have hticket := mem_ticketsAt hmem
    rw [hkeeps.tickets_eq_nil hn] at hticket
    contradiction
  obtain ⟨ticket, hticket⟩ := List.exists_mem_of_ne_nil _ hne
  obtain ⟨k', hk', rfl⟩ := List.mem_map.mp (hkeeps.mem_of_inside hticket)
  obtain ⟨hk', hs⟩ := List.mem_filter.mp hk'
  have hs : k'.site = k.site := of_decide_eq_true hs
  obtain ⟨⟨q', p⟩, hx, hclaim⟩ := List.mem_flatMap.mp hk'
  obtain ⟨j, hj⟩ := List.mem_iff_getElem?.mp hx
  cases p with
  | on c' => exact ⟨c', ⟨j, q', hj⟩, k', hclaim, hs, hs ▸ hticket⟩
  | done o => contradiction

/-- **No deadlock**: as long as a call is on its way, some call can go on. -/
theorem Sound.exists_canGoOn (h : s.Sound) {c : Call} (hc : s.Carries c) :
    ∃ c', s.Carries c' ∧ c'.CanGoOn s.now s.client := by
  have hinside {c : Call} (hc : s.Carries c) {k : Claim} (hk : k ∈ c.claims) :
      ∃ c', s.Carries c' ∧ (c'.CanGoOn s.now s.client ∨
        k.site ≠ .connection ∧ ∃ k' ∈ c'.claims, k'.site = .connection) := by
    obtain ⟨c', hc', k', hk', hs, hin⟩ := h.exists_inside hc hk
    exact ⟨c', hc', hs ▸ (c'.stance s.now s.client).of_inside hk' hin⟩
  have hwaits {k : Claim} (hk : k ∈ c.claims) :
      ∃ c', s.Carries c' ∧ c'.CanGoOn s.now s.client := by
    obtain ⟨c', hc', hgo | ⟨-, k', hk', hs⟩⟩ := hinside hc hk
    · exact ⟨c', hc', hgo⟩
    · -- whoever is inside the connection waits for nothing else
      obtain ⟨d, hd, hgo | ⟨hn, -⟩⟩ := hinside hc' hk'
      · exact ⟨d, hd, hgo⟩
      · exact (hn hs).elim
  have hstance := c.stance s.now s.client
  generalize c.claims = claims at hstance hwaits
  cases hstance with
  | goes _ hg => exact ⟨c, hc, hg⟩
  | waits k => exact hwaits (List.mem_singleton_self k)
  | opens k => exact hwaits (List.mem_cons_self (a := k))

/-! ## Coming to rest -/

/-- The calls that were begun go on, and nothing else happens. -/
inductive GoesOn : Traffic → Traffic → Prop where
  | refl (s : Traffic) : GoesOn s s
  | step {s t u : Traffic} {ms i : Nat} (hm : (s.pass ms).after (.advance i) = some t)
    (ht : GoesOn t u) : GoesOn s u

theorem GoesOn.leads (h : GoesOn s t) : Leads s t := by
  induction h with
  | refl => exact .refl _
  | step hm _ ih => exact (((Leads.refl _).step (m := .wait _) rfl).step hm).trans ih

/-- Every call has ended. -/
def AtRest (s : Traffic) : Prop := ∀ x ∈ s.calls, ∃ o, x.progress = .done o

/-- What is left to do. -/
def left (s : Traffic) (f : Call → Nat) : Nat := (s.calls.map fun x => leftOf f x.progress).sum

/-- A step leaves less to do. -/
theorem left_set {i : Nat} {q : Demand} {c : Call} (hi : s.calls[i]? = some ⟨q, .on c⟩)
    {p : Progress Call Outcome} (hp : c.Shrinks p) (ht : t.calls = s.calls.set i ⟨q, p⟩) :
    Prod.Lex (· < ·) (· < ·) (t.left Call.stages, t.left Call.visits)
      (s.left Call.stages, s.left Call.visits) := by
  have hstages := sum_map_set_add (fun x => leftOf Call.stages x.progress) hi ⟨q, p⟩
  have hvisits := sum_map_set_add (fun x => leftOf Call.visits x.progress) hi ⟨q, p⟩
  rw [← ht] at hstages hvisits
  change t.left Call.stages + c.stages = s.left Call.stages + leftOf Call.stages p at hstages
  change t.left Call.visits + c.visits = s.left Call.visits + leftOf Call.visits p at hvisits
  obtain hlt | ⟨heq, hlt⟩ := hp
  · exact .left _ _ (by omega)
  · rw [show t.left Call.stages = s.left Call.stages by omega]
    exact .right _ (by omega)

/-- Some call goes on, and less is left to do. -/
theorem Sound.exists_step (h : s.Sound) {c : Call} (hc : s.Carries c) :
    ∃ ms j t, (s.pass ms).after (.advance j) = some t ∧
      Prod.Lex (· < ·) (· < ·) (t.left Call.stages, t.left Call.visits)
        (s.left Call.stages, s.left Call.visits) := by
  obtain ⟨c', ⟨j, q', hj⟩, ms, hready⟩ := h.exists_canGoOn hc
  cases ho : c'.overflowing? s.client with
  | none =>
    refine ⟨ms, j, (s.pass ms).advance j q' c', ?_,
      left_set hj (c'.shrinks_step (s.now + ms) s.client) rfl⟩
    simp only [after, pass, hj, hready, ho, if_true]
  | some k =>
    refine ⟨ms, j, (s.pass ms).cutShort j q' k .dropped, ?_, left_set hj (.inl ?_) rfl⟩
    · simp only [after, pass, hj, hready, ho, if_true]
    · obtain rfl := receiving_of_overflowing ho
      obtain ⟨r, most, timeout, point⟩ := k
      cases point <;> exact Nat.le_of_ble_eq_true rfl

/-- **The bus comes to rest**: whatever was begun can be brought to its end. -/
theorem Reachable.comesToRest {s : Traffic} (h : s.Reachable) : ∃ t, GoesOn s t ∧ t.AtRest := by
  by_cases hrest : s.AtRest
  · exact ⟨s, .refl s, hrest⟩
  · obtain ⟨x, hx, hon⟩ := not_forall₂.mp hrest
    obtain ⟨i, hi⟩ := List.mem_iff_getElem?.mp hx
    obtain ⟨q, p⟩ := x
    cases p with
    | done o => exact (hon ⟨o, rfl⟩).elim
    | on c =>
      obtain ⟨ms, j, u, hu, hless⟩ := h.sound.exists_step ⟨i, q, hi⟩
      have hreach : u.Reachable := (h.step (m := .wait ms) rfl).step hu
      obtain ⟨t, ht, hrest⟩ := comesToRest hreach
      exact ⟨t, .step hu ht, hrest⟩
termination_by (s.left Call.stages, s.left Call.visits)
decreasing_by exact hless

end Traffic

end PeekLock.Remote
