import PeekLock.Proofs.Remote.Occupancy
import PeekLock.Remote.Team

/-!
# PeekLock.Proofs.Remote.Teams

What the members of a team know of their receiver.

Every call of the receiver is that of a member, who makes no other, and
every message that is not settled is owed by a member.  What a member
owes came from one lane (`Team.Sound`).
-/

namespace PeekLock.Remote

/-! ## Members -/

namespace Member

variable {a : Traffic} {x : Member} {r j : Nat} {q : Demand}

/-- A member receives when it owes nothing, and settles what it owes. -/
theorem mayDemand_cases (h : x.mayDemand r q = true) :
    (∃ most timeout, q = .receive r most timeout ∧ x.owed = []) ∨
      ∃ token v, q = .settle r token v ∧ token ∈ x.owed := by
  cases q with
  | receive r' most timeout =>
    obtain ⟨hr, ho⟩ := (Bool.and_eq_true _ _).mp h
    exact .inl ⟨most, timeout, by rw [of_decide_eq_true hr], List.isEmpty_iff.mp ho⟩
  | settle r' token v =>
    obtain ⟨hr, ho⟩ := (Bool.and_eq_true _ _).mp h
    exact .inr ⟨token, v, by rw [of_decide_eq_true hr], List.contains_iff_mem.mp ho⟩
  | _ => contradiction

theorem receiver?_of_mayDemand (h : x.mayDemand r q = true) : q.receiver? = some r := by
  obtain ⟨most, timeout, rfl, -⟩ | ⟨token, v, rfl, -⟩ := mayDemand_cases h <;> rfl

theorem hear_of_idle (hc : x.call = none) : x.hear a = x := by
  rw [hear, hc]
  rfl

theorem hear_of_on {c : Call} (hc : x.call = some j) (hj : a.calls[j]? = some ⟨q, .on c⟩) :
    x.hear a = x := by
  rw [hear, hc, Option.bind_some, hj]

theorem hear_of_done {o : Outcome} (hc : x.call = some j)
    (hj : a.calls[j]? = some ⟨q, .done o⟩) : x.hear a = { owed := x.owedAfter q o } := by
  rw [hear, hc, Option.bind_some, hj]

/-- A receive that has returned messages decides what is owed. -/
theorem owedAfter_receive (x : Member) (r most : Nat) (timeout : Duration) (o : Outcome) :
    x.owedAfter (.receive r most timeout) o = x.owed ∨ ∃ messages,
      o = .received (.ok messages) ∧
        x.owedAfter (.receive r most timeout) o = messages.map (·.lockToken) := by
  cases o with
  | received result =>
    cases result with
    | ok messages => exact .inr ⟨messages, rfl, rfl⟩
    | error e => exact .inl rfl
  | _ => exact .inl rfl

/-- A member that waits for a call has waited for it before. -/
theorem call_of_hear (h : (x.hear a).call = some j) : x.call = some j := by
  rw [hear] at h
  split at h
  · contradiction
  · exact h

end Member

namespace Team

/-! ## Turns -/

/-- What a move can do. -/
inductive Turn (s : Team) : Team → Prop where
  | calls (k : Nat) (x : Member) (q : Demand) (hx : s.members[k]? = some x) (hc : x.call = none)
    (hq : x.mayDemand s.receiver q = true) : Turn s (s.enlist k x (s.traffic.accept q))
  | advances (i : Nat) (q : Demand) (c : Call) (hi : s.traffic.calls[i]? = some ⟨q, .on c⟩)
    (hr : c.isReady s.traffic.now s.traffic.client = true)
    (ho : c.overflowing? s.traffic.client = none) : Turn s (s.hear (s.traffic.advance i q c))
  | passes (m : Remote.Move) (a : Traffic) (hm : begins s.receiver m = false)
    (ha : s.traffic.Around m a) : Turn s (s.hear a)

theorem turn_of_after {s t : Team} {m : Move} (h : s.after m = some t) :
    Turn s t ∧ s.traffic.Leads t.traffic := by
  cases m with
  | call k q =>
    simp only [after] at h
    split at h
    · next x hx =>
      split at h
      · next hq =>
        obtain ⟨hc, hq⟩ := (Bool.and_eq_true _ _).mp hq
        obtain ⟨a, ha, rfl⟩ := Option.map_eq_some_iff.mp h
        refine ⟨?_, .step (.refl _) ha⟩
        simp only [Traffic.after] at ha
        split at ha
        · cases ha
          exact .calls k x q hx (Option.isNone_iff_eq_none.mp hc) hq
        · contradiction
      · contradiction
    · contradiction
  | other m =>
    simp only [after] at h
    split at h
    · contradiction
    · next hm =>
      obtain ⟨a, ha, rfl⟩ := Option.map_eq_some_iff.mp h
      refine ⟨?_, .step (.refl _) ha⟩
      cases Traffic.goes_of_after ha with
      | advances i q c hi hr ho => exact .advances i q c hi hr ho
      | passes _ _ ha => exact .passes m a (Bool.eq_false_iff.mpr hm) ha

/-- **The rule of invariants**, from a given team on. -/
theorem Leads.invariant {P : Team → Prop} {s t : Team} (h : Leads s t)
    (hs : s.traffic.Reachable) (start : P s)
    (turn : ∀ t u, t.traffic.Reachable → Turn t u → P t → P u) : t.traffic.Reachable ∧ P t := by
  induction h with
  | refl => exact ⟨hs, start⟩
  | step _ hm ih =>
    obtain ⟨ht, hl⟩ := turn_of_after hm
    exact ⟨ih.1.leads hl, turn _ _ ih.1 ht ih.2⟩

/-- What some moves lead to is reached. -/
theorem leads_of_run {s t : Team} {moves : List Move} (h : s.run moves = some t) : Leads s t :=
  keeps_of_foldlM h (.refl s) fun _ _ _ hl hm => hl.step hm

/-! ## What the members owe -/

/-- What the members know of their receiver. -/
structure Sound (s : Team) : Prop where
  known : s.receiver < s.traffic.client.receivers.length
  unclosed : ∀ x ∈ s.traffic.calls, x.demand ≠ .close s.receiver
  /-- Every call of the receiver is that of a member. -/
  owned : ∀ (j : Nat) (q : Demand) (c : Call), s.traffic.calls[j]? = some ⟨q, .on c⟩ →
    q.receiver? = some s.receiver → ∃ x ∈ s.members, x.call = some j
  /-- A member waits for what it could demand. -/
  calls : ∀ x ∈ s.members, ∀ j, x.call = some j → ∃ q c,
    s.traffic.calls[j]? = some ⟨q, .on c⟩ ∧ x.mayDemand s.receiver q = true
  distinct : ∀ (k k' : Nat) (x x' : Member) (j : Nat), s.members[k]? = some x →
    s.members[k']? = some x' → x.call = some j → x'.call = some j → k = k'
  /-- What a member owes came from one lane. -/
  lane : ∀ x ∈ s.members, ∃ p, ∀ token ∈ x.owed, laneOf token = some p
  /-- Every message that is not settled is owed by a member. -/
  stock : ∀ h ∈ s.traffic.client.stock s.receiver, ∃ x ∈ s.members, h.token ∈ x.owed

variable {s t : Team}

/-- The receiver stays open. -/
theorem Sound.open_receiver (h : s.Sound) (hr : s.traffic.Reachable) :
    (s.traffic.client.receiver s.receiver).closed = false :=
  Bool.eq_false_iff.mpr fun hc => by
    obtain ⟨x, hx, hd⟩ := hr.demanded.closed _ hc
    exact h.unclosed x hx hd

/-- A member has begun a call. -/
theorem Sound.enlist (h : s.Sound) {k : Nat} {x : Member} {q : Demand}
    (hx : s.members[k]? = some x) (hc : x.call = none) (hq : x.mayDemand s.receiver q = true) :
    (s.enlist k x (s.traffic.accept q)).Sound := by
  have hlt := (List.getElem?_eq_some_iff.mp hx).1
  have hold {j : Nat} {y : Entry} (hj : s.traffic.calls[j]? = some y) :
      (s.traffic.accept q).calls[j]? = some y := by
    rw [Traffic.accept, List.getElem?_append_left (List.getElem?_eq_some_iff.mp hj).1, hj]
  have hnew : (s.traffic.accept q).calls[s.traffic.calls.length]? = some ⟨q, .on q.call⟩ :=
    List.getElem?_concat_length
  have hself : { x with call := some s.traffic.calls.length } ∈
      s.members.set k { x with call := some s.traffic.calls.length } :=
    List.mem_iff_getElem?.mpr ⟨k, List.getElem?_set_self hlt⟩
  have hlast (y : Member) (hy : y ∈ s.members) : y.call ≠ some s.traffic.calls.length := by
    intro hj
    obtain ⟨q', c, hq', -⟩ := h.calls y hy _ hj
    exact Nat.lt_irrefl _ (List.getElem?_eq_some_iff.mp hq').1
  refine ⟨h.known, fun y hy => ?_, fun j q' c hj hr => ?_, fun y hy j hj => ?_,
    fun k₁ k₂ y₁ y₂ j hy₁ hy₂ hj₁ hj₂ => ?_, fun y hy => ?_, fun m hm => ?_⟩
  · obtain hy | hy := List.mem_append.mp hy
    · exact h.unclosed y hy
    · rw [List.mem_singleton.mp hy]
      intro hclose
      change q = .close s.receiver at hclose
      rw [hclose] at hq
      contradiction
  · obtain hj | ⟨rfl, -⟩ := Traffic.entry_of_accept hj
    · obtain ⟨y, hy, hcall⟩ := h.owned j q' c hj hr
      obtain ⟨k', hk'⟩ := List.mem_iff_getElem?.mp hy
      refine ⟨y, List.mem_iff_getElem?.mpr ⟨k', ?_⟩, hcall⟩
      rw [Team.enlist, List.getElem?_set_ne, hk']
      rintro rfl
      rw [hx] at hk'
      cases hk'
      rw [hc] at hcall
      contradiction
    · exact ⟨_, hself, rfl⟩
  · obtain hy | rfl := List.mem_or_eq_of_mem_set hy
    · obtain ⟨q', c, hq', hmay⟩ := h.calls y hy j hj
      exact ⟨q', c, hold hq', hmay⟩
    · cases hj
      exact ⟨q, _, hnew, hq⟩
  · obtain ⟨-, hy₁⟩ | ⟨rfl, rfl⟩ := Traffic.entry_of_set hy₁
    · obtain ⟨-, hy₂⟩ | ⟨rfl, rfl⟩ := Traffic.entry_of_set hy₂
      · exact h.distinct k₁ k₂ y₁ y₂ j hy₁ hy₂ hj₁ hj₂
      · exact (hlast y₁ (List.mem_of_getElem? hy₁) (hj₁.trans hj₂.symm)).elim
    · obtain ⟨-, hy₂⟩ | ⟨rfl, -⟩ := Traffic.entry_of_set hy₂
      · exact (hlast y₂ (List.mem_of_getElem? hy₂) (hj₂.trans hj₁.symm)).elim
      · rfl
  · obtain hy | rfl := List.mem_or_eq_of_mem_set hy
    · exact h.lane y hy
    · exact h.lane x (List.mem_of_getElem? hx)
  · obtain ⟨y, hy, hm⟩ := h.stock m hm
    obtain ⟨k', hk'⟩ := List.mem_iff_getElem?.mp hy
    by_cases hkk : k = k'
    · subst hkk
      rw [hx] at hk'
      cases hk'
      exact ⟨_, hself, hm⟩
    · exact ⟨y, List.mem_iff_getElem?.mpr ⟨k', (List.getElem?_set_ne hkk).trans hk'⟩, hm⟩

/-- What becomes of the receiver of a team when something happens in its traffic. -/
structure Follows (s : Team) (a : Traffic) : Prop where
  known : s.receiver < a.client.receivers.length
  kept : ∀ (j : Nat) (x : Entry), s.traffic.calls[j]? = some x →
    ∃ p, a.calls[j]? = some ⟨x.demand, p⟩
  /-- Nobody else has begun a call of the receiver, and what is over stays so. -/
  entries : ∀ (j : Nat) (x : Entry), a.calls[j]? = some x →
    x.demand.receiver? = some s.receiver → ∃ p, s.traffic.calls[j]? = some ⟨x.demand, p⟩ ∧
      ∀ o, p = .done o → x.progress = .done o
  /-- What is handed out comes from one lane. -/
  lane : ∀ (j : Nat) (q : Demand) (c : Call) (messages : List Message),
    s.traffic.calls[j]? = some ⟨q, .on c⟩ →
      a.calls[j]? = some ⟨q, .done (.received (.ok messages))⟩ →
        ∃ p, ∀ m ∈ messages, laneOf m.lockToken = some p
  /-- What is in stock was there before, and is not settled now, or it is handed out now. -/
  stock : ∀ h ∈ a.client.stock s.receiver,
    (h ∈ s.traffic.client.stock s.receiver ∧ ∀ (j : Nat) (v : Verdict) (c : Call) (o : Outcome),
      s.traffic.calls[j]? = some ⟨.settle s.receiver h.token v, .on c⟩ →
        a.calls[j]? ≠ some ⟨.settle s.receiver h.token v, .done o⟩) ∨
    ∃ (j most : Nat) (timeout : Duration) (c : Call) (messages : List Message),
      s.traffic.calls[j]? = some ⟨.receive s.receiver most timeout, .on c⟩ ∧
        a.calls[j]? = some ⟨.receive s.receiver most timeout, .done (.received (.ok messages))⟩ ∧
          h.token ∈ messages.map (·.lockToken)

/-- A member that waits for a call after something has happened has not heard of it. -/
theorem Sound.hear_eq (h : s.Sound) {a : Traffic} (hf : s.Follows a) {x : Member}
    (hx : x ∈ s.members) {j : Nat} (hj : (x.hear a).call = some j) : x.hear a = x := by
  have hcall := Member.call_of_hear hj
  obtain ⟨q, c, hq, -⟩ := h.calls x hx j hcall
  obtain ⟨p, hp⟩ := hf.kept j _ hq
  cases p with
  | on c' => exact Member.hear_of_on hcall hp
  | done o =>
    rw [Member.hear_of_done hcall hp] at hj
    contradiction

theorem Sound.hear (h : s.Sound) {a : Traffic} (hf : s.Follows a) : (s.hear a).Sound := by
  refine ⟨hf.known, fun y hy hclose => ?_, fun j q c hj hr => ?_, fun y hy j hj => ?_,
    fun k₁ k₂ y₁ y₂ j hy₁ hy₂ hj₁ hj₂ => ?_, fun y hy => ?_, fun m hm => ?_⟩
  · obtain ⟨j, hj⟩ := List.mem_iff_getElem?.mp hy
    obtain ⟨p, hp, -⟩ := hf.entries j y hj (by rw [hclose]; rfl)
    exact h.unclosed _ (List.mem_of_getElem? hp) hclose
  · obtain ⟨p, hp, hdone⟩ := hf.entries j _ hj hr
    cases p with
    | done o => cases hdone o rfl
    | on c' =>
      obtain ⟨x, hx, hcall⟩ := h.owned j q c' hp hr
      refine ⟨x, ?_, hcall⟩
      rw [← Member.hear_of_on hcall hj]
      exact List.mem_map_of_mem hx
  · obtain ⟨x, hx, rfl⟩ := List.mem_map.mp hy
    have hsame := h.hear_eq hf hx hj
    rw [hsame] at hj ⊢
    obtain ⟨q, c, hq, hmay⟩ := h.calls x hx j hj
    obtain ⟨p, hp⟩ := hf.kept j _ hq
    cases p with
    | on c' => exact ⟨q, c', hp, hmay⟩
    | done o =>
      have hcall := congrArg Member.call hsame
      rw [Member.hear_of_done hj hp, hj] at hcall
      contradiction
  · obtain ⟨x₁, hx₁, rfl⟩ := Option.map_eq_some_iff.mp (List.getElem?_map ▸ hy₁)
    obtain ⟨x₂, hx₂, rfl⟩ := Option.map_eq_some_iff.mp (List.getElem?_map ▸ hy₂)
    exact h.distinct k₁ k₂ x₁ x₂ j hx₁ hx₂ (Member.call_of_hear hj₁) (Member.call_of_hear hj₂)
  · obtain ⟨x, hx, rfl⟩ := List.mem_map.mp hy
    obtain ⟨p, hp⟩ := h.lane x hx
    cases hcall : x.call with
    | none =>
      rw [Member.hear_of_idle hcall]
      exact ⟨p, hp⟩
    | some j =>
      obtain ⟨q, c, hq, hmay⟩ := h.calls x hx j hcall
      obtain ⟨p', hp'⟩ := hf.kept j _ hq
      cases p' with
      | on c' =>
        rw [Member.hear_of_on hcall hp']
        exact ⟨p, hp⟩
      | done o =>
        rw [Member.hear_of_done hcall hp']
        obtain ⟨most, timeout, rfl, hnil⟩ | ⟨token, v, rfl, -⟩ := Member.mayDemand_cases hmay
        · obtain hsame | ⟨messages, rfl, hnew⟩ := x.owedAfter_receive s.receiver most timeout o
          · rw [hsame]
            exact ⟨p, hp⟩
          · obtain ⟨p, hp⟩ := hf.lane j _ c messages hq hp'
            rw [hnew]
            refine ⟨p, fun token ht => ?_⟩
            obtain ⟨m, hm, rfl⟩ := List.mem_map.mp ht
            exact hp m hm
        · exact ⟨p, fun token ht => hp token (List.erase_subset ht)⟩
  · obtain ⟨hm, hnot⟩ | ⟨j, most, timeout, c, messages, hq, hp, hm⟩ := hf.stock m hm
    · obtain ⟨x, hx, hm⟩ := h.stock m hm
      refine ⟨x.hear a, List.mem_map_of_mem hx, ?_⟩
      cases hcall : x.call with
      | none => rwa [Member.hear_of_idle hcall]
      | some j =>
        obtain ⟨q, c, hq, hmay⟩ := h.calls x hx j hcall
        obtain ⟨p, hp⟩ := hf.kept j _ hq
        cases p with
        | on c' => rwa [Member.hear_of_on hcall hp]
        | done o =>
          rw [Member.hear_of_done hcall hp]
          obtain ⟨most, timeout, -, hnil⟩ | ⟨token, v, rfl, -⟩ := Member.mayDemand_cases hmay
          · rw [hnil] at hm
            contradiction
          · refine (List.mem_erase_of_ne ?_).mpr hm
            rintro rfl
            exact hnot j v c o hq hp
    · obtain ⟨x, hx, hcall⟩ := h.owned j _ c hq rfl
      refine ⟨x.hear a, List.mem_map_of_mem hx, ?_⟩
      rw [Member.hear_of_done hcall hp]
      exact hm

/-! ## Every move -/

/-- A step of a call. -/
theorem Sound.follows_advance (h : s.Sound) (hs : s.traffic.Reachable) {i : Nat} {q : Demand}
    {c : Call} (hi : s.traffic.calls[i]? = some ⟨q, .on c⟩)
    (hr : c.isReady s.traffic.now s.traffic.client = true) :
    s.Follows (s.traffic.advance i q c) := by
  have hdeed := c.deed s.traffic.now (hs.sound.fits i q c hi).known
  have hmatter : c.matter = q.matter := hs.demanded.calls i _ hi
  refine ⟨Nat.lt_of_lt_of_le h.known (hdeed.grows rfl).receivers, fun j x hj => ?_,
    fun j x hj hx => ?_, fun j q' c' messages hj hdone => ?_, fun m hm => ?_⟩
  · by_cases hij : i = j
    · subst hij
      rw [hi] at hj
      cases hj
      exact ⟨_, List.getElem?_set_self (List.getElem?_eq_some_iff.mp hi).1⟩
    · exact ⟨x.progress, (List.getElem?_set_ne hij).trans hj⟩
  · obtain ⟨-, hj⟩ | ⟨rfl, rfl⟩ := Traffic.entry_of_set hj
    · exact ⟨x.progress, hj, fun _ => id⟩
    · exact ⟨_, hi, fun _ ho => by cases ho⟩
  · obtain ⟨-, hdone⟩ | ⟨rfl, hx⟩ := Traffic.entry_of_set hdone
    · rw [hj] at hdone
      cases hdone
    · injection hx with _ hp
      rw [← hp] at hdeed
      obtain ⟨k, rfl, hall⟩ := hdeed.returned
      obtain ⟨p, hlane⟩ := Call.laneOf_handouts hs.sound.client (.receiving k)
      refine ⟨p, fun m hm => ?_⟩
      obtain ⟨x, hx, -, rfl⟩ := hall m hm
      exact hlane x hx
  · obtain hold | hnew := hs.balanced.mem_stock_of_advance hs.sound hi hr hm
    · refine .inl ⟨hold, fun j v c' o hj hdone => ?_⟩
      obtain ⟨-, hdone⟩ | ⟨rfl, hx⟩ := Traffic.entry_of_set hdone
      · rw [hj] at hdone
        cases hdone
      · injection hx with hq hp
        subst hq
        exact hs.not_stock_of_settled (h.open_receiver hs) hi hp.symm m hold rfl
    · obtain ⟨k, rfl, hreceiver, messages, hp, hm'⟩ := Call.returns_handouts hnew s.traffic.now
      have hbalanced := hs.balanced.advance hs.sound hi hr
      rw [(hbalanced.of_stock hm).2] at hreceiver
      obtain ⟨most, timeout, rfl⟩ := Demand.eq_receive hmatter
      rw [hreceiver] at hi ⊢
      refine .inr ⟨i, most, timeout, _, messages, hi, ?_, hm'⟩
      rw [← hp]
      exact List.getElem?_set_self (List.getElem?_eq_some_iff.mp hi).1

/-- A move that is no step of a call. -/
theorem Sound.follows_around (h : s.Sound) (hs : s.traffic.Reachable) {m : Remote.Move}
    {a : Traffic} (hm : begins s.receiver m = false) (ha : s.traffic.Around m a) :
    s.Follows a := by
  refine ⟨?_, fun j x hj => ?_, fun j x hj hx => ?_, fun j q c messages hj hdone => ?_,
    fun x hx => .inl ⟨?_, fun j v c o hj hdone => ?_⟩⟩
  · rw [ha.receivers]
    exact h.known
  · exact ha.exists_entry hj
  · obtain hj | ⟨-, rfl, -⟩ | ⟨c, hj, o, hp, -⟩ := ha.entries j x hj
    · exact ⟨x.progress, hj, fun _ => id⟩
    · exact absurd hx (of_decide_eq_false hm)
    · exact ⟨_, hj, fun _ ho => by cases ho⟩
  · obtain hdone | ⟨hnone, -⟩ | ⟨c, -, o, hp, ho⟩ := ha.entries j _ hdone
    · rw [hj] at hdone
      cases hdone
    · rw [hj] at hnone
      contradiction
    · cases hp
      obtain ho | ⟨-, e, ho⟩ := ho <;> cases ho
  · rwa [Client.stock_congr ha.receivers] at hx
  · obtain hdone | ⟨hnone, -⟩ | ⟨k, hk, -⟩ := ha.entries j _ hdone
    · rw [hj] at hdone
      cases hdone
    · rw [hj] at hnone
      contradiction
    · cases hs.demanded.calls j _ hk

theorem Sound.turn (h : s.Sound) (hs : s.traffic.Reachable) (ht : Turn s t) : t.Sound := by
  cases ht with
  | calls k x q hx hc hq => exact h.enlist hx hc hq
  | advances i q c hi hr ho => exact h.hear (h.follows_advance hs hi hr)
  | passes m a hm ha => exact h.hear (h.follows_around hs hm ha)

/-- Members that have not called yet know enough. -/
theorem sound_gather {a : Traffic} {r : Nat} (ha : a.Reachable)
    (hr : r < a.client.receivers.length) (hu : a.Unused r) (n : Nat) : (gather a r n).Sound := by
  have hmember (x : Member) (hx : x ∈ (gather a r n).members) : x = {} :=
    List.eq_of_mem_replicate hx
  refine ⟨hr, fun x hx hclose => hu x hx (by rw [hclose]; rfl), fun j q c hj hq => ?_,
    fun x hx j hj => ?_, fun k k' x x' j hx hx' hj hj' => ?_, fun x hx => ⟨0, fun token ht => ?_⟩,
    fun h hh => ?_⟩
  · exact (hu _ (List.mem_of_getElem? hj) hq).elim
  · rw [hmember x hx] at hj
    contradiction
  · rw [hmember x (List.mem_of_getElem? hx)] at hj
    contradiction
  · rw [hmember x hx] at ht
    contradiction
  · obtain ⟨path, link, he⟩ := ha.fresh_of_unused hr hu
    change h ∈ a.client.stock r at hh
    rw [Client.stock, he] at hh
    contradiction

end Team

end PeekLock.Remote
