import PeekLock.Proofs.Remote.Disposals
import PeekLock.Proofs.Remote.Losses

/-!
# PeekLock.Proofs.Remote.Occupancy

Who keeps a lane busy.

A lane of an open receiver is idle unless it has a message that is not
settled, or somebody has a ticket for it: a receive that waits there for
messages, or a settlement of a message that came from it
(`Reachable.occupied`).  A receive opens another lane only if it has found
no lane idle (`Receive.isExpanding_step`).
-/

namespace PeekLock.Remote

/-! ## Calls of other receivers -/

/-- A call stays what it was begun as, so it is about the receiver of its demand. -/
theorem Call.receiver?_eq {c : Call} {q : Demand} (h : c.matter = q.matter) :
    c.receiver? = q.receiver? := by
  cases c <;> cases q <;> cases h <;> rfl

/-- A call that is not about a receiver leaves it as it is. -/
theorem Deed.receiver_eq {s t : Client} {c : Call} {sets : List LaneSet}
    {p : Progress Call Outcome} (h : Deed s c sets p) (ht : t.receivers = sets) {r : Nat}
    (hc : c.receiver? ≠ some r) (hr : r < s.receivers.length) : t.receiver r = s.receiver r := by
  have hother {r' : Nat} {set : LaneSet} (hs : t.receivers = (s.setReceiver r' set).receivers)
      (hc : some r' ≠ some r) : t.receiver r = s.receiver r := by
    rw [Client.receiver_congr hs]
    exact Client.receiver_setReceiver_ne (fun he => hc (congrArg some he.symm)) set
  cases h with
  | creates c path link =>
    have hs : t.receivers =
      { s with receivers := s.receivers ++ [LaneSet.fresh path link] }.receivers := ht
    rw [Client.receiver_congr hs]
    exact Client.receiver_append _ hr
  | adds | handsOut | asks | misses | marks | unlists | disposes => exact hother ht hc
  | _ => exact Client.receiver_congr ht r

/-- A receiver that was not there before has just been created. -/
theorem Deed.receiver_new {s t : Client} {c : Call} {sets : List LaneSet}
    {p : Progress Call Outcome} (h : Deed s c sets p) (ht : t.receivers = sets) {r : Nat}
    (hs : s.receivers.length ≤ r) (hr : r < t.receivers.length) :
    ∃ path link, t.receiver r = LaneSet.fresh path link := by
  rw [ht] at hr
  cases h with
  | creates c path link =>
    rw [List.length_append, List.length_singleton] at hr
    obtain rfl : r = s.receivers.length := by omega
    have hs : t.receivers =
      { s with receivers := s.receivers ++ [LaneSet.fresh path link] }.receivers := ht
    exact ⟨path, link, (Client.receiver_congr hs _).trans (Client.receiver_append_self s _)⟩
  | adds c list ticket link =>
    rw [Client.addLane, Client.length_setReceiver] at hr
    omega
  | handsOut | asks | misses | disposes =>
    have := Nat.lt_of_lt_of_eq hr (Client.length_setReceiver ..)
    omega
  | marks | unlists =>
    have := Nat.lt_of_lt_of_eq hr (Client.length_setReceiver ..)
    omega
  | _ => omega

namespace Traffic

variable {s t : Traffic} {r : Nat}

/-- No call about a receiver was begun. -/
def Unused (s : Traffic) (r : Nat) : Prop := ∀ x ∈ s.calls, x.demand.receiver? ≠ some r

/-- **A receiver that nobody has called** is as it was created. -/
theorem Reachable.fresh_of_unused (h : s.Reachable) (hr : r < s.client.receivers.length)
    (hu : s.Unused r) : ∃ path link, s.client.receiver r = LaneSet.fresh path link := by
  refine h.invariant (P := fun s => r < s.client.receivers.length → s.Unused r →
    ∃ path link, s.client.receiver r = LaneSet.fresh path link) (fun _ _ hr => ?_) ?_ hr hu
  · contradiction
  · intro t u hl ht ih hr hu
    have hsame (hc : u.client.receivers = t.client.receivers)
        (hu : t.Unused r) : ∃ path link, u.client.receiver r = LaneSet.fresh path link := by
      rw [Client.receiver_congr hc]
      exact ih (hc ▸ hr) hu
    cases ht with
    | accepts q => exact hsame rfl fun x hx => hu x (List.mem_append_left _ hx)
    | cutsShort i q c o hi =>
      refine hsame (c.receivers_drop t.client) fun x hx => ?_
      obtain ⟨y, hy, hd⟩ := exists_demand_set hi ⟨x, hx, rfl⟩
      exact hd ▸ hu y hy
    | arranges => exact hsame rfl hu
    | waits => exact hsame rfl hu
    | advances i q c hi =>
      have hunused : t.Unused r := fun x hx => by
        obtain ⟨y, hy, hd⟩ := exists_demand_set hi ⟨x, hx, rfl⟩
        exact hd ▸ hu y hy
      have hfits := hl.sound.fits i q c hi
      have hdeed := c.deed t.now hfits.known
      have hc : c.receiver? ≠ some r := by
        rw [Call.receiver?_eq (hl.demanded.calls i _ hi)]
        exact hunused _ (List.mem_of_getElem? hi)
      by_cases hlt : r < t.client.receivers.length
      · obtain ⟨path, link, he⟩ := ih hlt hunused
        exact ⟨path, link, (hdeed.receiver_eq rfl hc hlt).trans he⟩
      · exact hdeed.receiver_new rfl (Nat.le_of_not_lt hlt) hr

/-! ## Who has a ticket for a lane -/

end Traffic

/-- A call that has a ticket for a lane. -/
inductive Call.At (r p : Nat) : Call → Prop where
  | pulling (c : Receive) (ticket link deadline : Nat) (hr : c.receiver = r)
    (hc : c.point = .pulling p ticket link deadline) : At r p (.receiving c)
  | entering (c : Settle) (ticket : Nat) (hr : c.receiver = r) (hc : c.point = .entering p ticket) :
    At r p (.settling c)
  | asking (c : Settle) (ticket : Nat) (problem : Option String) (hr : c.receiver = r)
    (hc : c.point = .asking p ticket problem) : At r p (.settling c)
  | closing (c : Close) (hr : c.receiver = r) : At r p (.closing c)

theorem Call.At.receiver? {c : Call} {r p : Nat} (h : c.At r p) : c.receiver? = some r := by
  cases h with
  | pulling c ticket link deadline hr => exact congrArg some hr
  | entering c ticket hr => exact congrArg some hr
  | asking c ticket problem hr => exact congrArg some hr
  | closing c hr => exact congrArg some hr

theorem Call.at_of_claim {c : Call} {k : Claim} {r p : Nat} (hk : k ∈ c.claims)
    (hs : k.site = .lane r p) : c.At r p := by
  cases c with
  | sending c =>
    cases c with
    | creating =>
      cases List.mem_singleton.mp hk
      cases hs
    | _ => contradiction
  | opening c =>
    cases c with
    | opening | linking =>
      cases List.mem_singleton.mp hk
      cases hs
    | _ => contradiction
  | receiving c =>
    obtain ⟨r', most, timeout, point⟩ := c
    cases point with
    | arriving => contradiction
    | surveying | expanding =>
      cases List.mem_singleton.mp hk
      cases hs
    | opening | linking =>
      obtain rfl | hk := List.mem_cons.mp hk
      · cases hs
      · cases List.mem_singleton.mp hk
        cases hs
    | pulling position ticket link deadline =>
      cases List.mem_singleton.mp hk
      cases hs
      exact .pulling _ ticket link deadline rfl rfl
  | settling c =>
    obtain ⟨r', token, verdict, point⟩ := c
    cases point with
    | arriving => contradiction
    | finding =>
      cases List.mem_singleton.mp hk
      cases hs
    | entering position ticket =>
      cases List.mem_singleton.mp hk
      cases hs
      exact .entering _ ticket rfl rfl
    | asking position ticket problem =>
      cases List.mem_singleton.mp hk
      cases hs
      exact .asking _ ticket problem rfl rfl
  | closing c =>
    obtain ⟨r', point⟩ := c
    cases point with
    | marking => contradiction
    | taking =>
      cases List.mem_singleton.mp hk
      cases hs
    | entering | disposing =>
      cases List.mem_singleton.mp hk
      cases hs
      exact .closing _ rfl

namespace Traffic

variable {s t : Traffic} {r : Nat}

/-- If somebody is inside the gate of a lane, a call has a ticket for it. -/
theorem Sound.exists_at (h : s.Sound) {p : Nat}
    (hf : (s.client.gate (.lane r p)).isFree = false) :
    ∃ (j : Nat) (q : Demand) (c : Call), s.calls[j]? = some ⟨q, .on c⟩ ∧ c.At r p := by
  obtain ⟨u, hu⟩ : ∃ u, u ∈ (s.client.gate (.lane r p)).inside := by
    refine List.exists_mem_of_ne_nil _ fun hn => ?_
    rw [Gate.isFree, hn] at hf
    contradiction
  have hticket := (h.keeps.gates (.lane r p)).mem_of_inside hu
  obtain ⟨k, hk, -⟩ := List.mem_map.mp hticket
  obtain ⟨hk, hsite⟩ := List.mem_filter.mp hk
  obtain ⟨⟨q, progress⟩, hx, hclaim⟩ := List.mem_flatMap.mp hk
  obtain ⟨j, hj⟩ := List.mem_iff_getElem?.mp hx
  cases progress with
  | done o => contradiction
  | on c => exact ⟨j, q, c, hj, Call.at_of_claim hclaim (of_decide_eq_true hsite)⟩

/-- The lanes of an open receiver have their links. -/
theorem Reachable.link_isSome (h : s.Reachable) (ho : (s.client.receiver r).closed = false)
    {p : Nat} (hp : p < (s.client.receiver r).lanes.length) :
    (s.client.lane r p).link.isSome = true := by
  obtain ⟨g, hg, rfl⟩ := Register.exists_traffic h
  cases hg.stands r with
  | opened _ _ hd =>
    have hlink : (g.traffic.client.lane r p).link ∈ (g.traffic.client.receiver r).links :=
      List.mem_map_of_mem (Client.mem_lanes hp)
    rw [hd.links, List.replicate_zero, List.nil_append, List.drop_zero] at hlink
    obtain ⟨link, -, hl⟩ := List.mem_map.mp hlink
    rw [← hl]
    rfl
  | marked _ _ hm =>
    rw [hm] at ho
    contradiction
  | unlisted _ _ hu =>
    rw [hu.closed] at ho
    contradiction

/-- **A lane that is not idle is occupied**: somebody has a ticket for it, or one of its messages
is not settled. -/
theorem Reachable.occupied (h : s.Reachable) (ho : (s.client.receiver r).closed = false)
    {p : Nat} (hp : p < (s.client.receiver r).lanes.length) (hb : s.client.isIdle r p = false) :
    (∃ (j : Nat) (q : Demand) (c : Call), s.calls[j]? = some ⟨q, .on c⟩ ∧ c.At r p) ∨
      ∃ x ∈ s.client.stock r, laneOf x.token = some p := by
  cases hf : (s.client.gate (.lane r p)).isFree with
  | false => exact .inl (h.sound.exists_at hf)
  | true =>
    right
    have hlink := h.link_isSome ho hp
    rw [Client.isIdle] at hb
    simp only [hf, hlink, Bool.true_and] at hb
    obtain ⟨x, hx⟩ := List.exists_mem_of_ne_nil (s.client.lane r p).inFlight fun hn => by
      rw [hn] at hb
      contradiction
    obtain ⟨link, hl⟩ := Option.isSome_iff_exists.mp hlink
    have hlane := (h.sound.client r).lanes _ (Client.mem_lanes hp)
    obtain ⟨supply, used, hn⟩ := hlane.named x hx
    refine ⟨⟨r, link, x.1, x.2⟩, List.mem_flatMap.mpr ⟨_, Client.mem_lanes hp, ?_⟩, ?_⟩
    · rw [Lane.stock_of_link hl]
      exact List.mem_map_of_mem hx
    · rw [hn, laneOf_lockToken supply hlane.word,
        (h.sound.client r).numbered ho p _ (Client.getElem?_lane hp)]

/-! ## Settling -/

/-- A settlement that holds a lane has a token that names it. -/
def Placed (s : Traffic) : Prop :=
  ∀ (j : Nat) (q : Demand) (c : Settle) (p ticket : Nat) (problem : Option String),
    s.calls[j]? = some ⟨q, .on (.settling c)⟩ → c.point = .asking p ticket problem →
      (s.client.receiver c.receiver).closed = false → laneOf c.token = some p

theorem Placed.turn (h : s.Placed) (hs : s.Sound) (ht : Turn s t) : t.Placed := by
  intro j q k p ticket problem hj hk ho
  cases ht with
  | accepts q' hr =>
    obtain hj | ⟨-, hx⟩ := entry_of_accept hj
    · exact h j q k p ticket problem hj hk ho
    · cases q' <;> cases hx
      contradiction
  | advances i q' c hi hr hover =>
    have hbefore := hs.open_of_advance hi ho
    obtain ⟨-, hj⟩ | ⟨rfl, hx⟩ := entry_of_set hj
    · exact h j q k p ticket problem hj hk hbefore
    · injection hx with _ hp
      have hdeed := c.deed s.now (hs.fits i q' c hi).known
      rw [← hp] at hdeed
      generalize (c.step s.now s.client).state.receivers = sets at hdeed
      generalize hp : Progress.on (Call.settling k) = p' at hdeed
      cases hdeed with
      | sends c p | opens c p =>
        obtain ⟨k', -, hk'⟩ := Progress.map_eq_on hp.symm
        cases hk'
      | asks c position ticket' link m hc =>
        cases hp
        cases hk
        exact Settle.Fits.entering (hs.fits i q' _ hi) p ticket hc hbefore
      | adds c list ticket' link problem' hc p' hp' =>
        obtain ⟨e, rfl⟩ | ⟨ticket', deadline, rfl⟩ := hp' <;> cases hp
      | unlists c list hc p' hp' | goesOn c position ticket' problem' rest tally hc p' hp' =>
        obtain ⟨result, rfl⟩ | ⟨position', ticket'', rest', tally', -, rfl⟩ := hp' <;> cases hp
      | disposes c position ticket' rest tally hc p' hp' =>
        obtain (⟨result, rfl⟩ | ⟨position', ticket'', rest', tally', -, rfl⟩) |
          ⟨problem', tally', rfl⟩ := hp' <;> cases hp
      | _ => cases hp <;> contradiction
  | cutsShort i q' c o hi =>
    obtain ⟨-, hj⟩ | ⟨-, hx⟩ := entry_of_set hj
    · refine h j q k p ticket problem hj hk ?_
      rwa [cutShort, Client.receiver_congr (c.receivers_drop s.client)] at ho
    · cases hx
  | arranges => exact h j q k p ticket problem hj hk ho
  | waits => exact h j q k p ticket problem hj hk ho

/-- **A settlement holds the lane that its token names**, in every traffic that can come about. -/
theorem Reachable.placed (h : s.Reachable) : s.Placed :=
  h.invariant (fun _ _ j _ _ _ _ _ hj => (calls_start j _ hj).elim) fun _ _ hl ht hp =>
    hp.turn hl.sound ht

/-- A message whose settlement has come to its end is not in stock. -/
theorem Reachable.not_stock_of_settled (h : s.Reachable)
    (ho : (s.client.receiver r).closed = false) {i : Nat} {token : LockToken} {v : Verdict}
    {c : Call} (hi : s.calls[i]? = some ⟨.settle r token v, .on c⟩) {o : Outcome}
    (hp : (c.step s.now s.client).progress = .done o) :
    ∀ x ∈ s.client.stock r, x.token ≠ token := by
  rintro x hx rfl
  obtain ⟨hm, rfl⟩ := h.balanced.of_stock hx
  obtain ⟨k, rfl, -⟩ := Call.eq_settling (h.demanded.calls _ _ hi)
  exact h.balanced.not_stock_of_asked (h.asked_of_done hm ho hi hp) x hx rfl

end Traffic

/-! ## Handing out -/

/-- What is handed out in one step comes from one lane. -/
theorem Call.laneOf_handouts {s : Client} (hs : s.Sound) (c : Call) :
    ∃ p, ∀ x ∈ c.handouts s, laneOf x.token = some p := by
  cases c with
  | receiving c =>
    cases hc : c.point with
    | pulling position ticket link deadline =>
      refine ⟨(s.lane c.receiver position).number, fun x hx => ?_⟩
      rw [Call.handouts_pulling hc] at hx
      obtain ⟨y, hy, rfl⟩ := List.mem_map.mp hx
      obtain ⟨used, -, -, hn⟩ := Client.mem_tokenAll hy
      exact hn ▸ laneOf_lockToken s.supply (hs.lane c.receiver position).word used
    | _ =>
      refine ⟨0, fun x hx => ?_⟩
      rw [Call.handouts_eq_nil (hc ▸ rfl)] at hx
      contradiction
  | _ => exact ⟨0, fun x hx => by contradiction⟩

/-- What is handed out is returned. -/
theorem Call.returns_handouts {s : Client} {c : Call} {x : Handout} (hx : x ∈ c.handouts s)
    (now : Nat) : ∃ k : Receive, c = .receiving k ∧ k.receiver = x.receiver ∧ ∃ messages,
      (c.step now s).progress = .done (.received (.ok messages)) ∧
        x.token ∈ messages.map (·.lockToken) := by
  cases c with
  | receiving c =>
    cases hc : c.point with
    | pulling position ticket link deadline =>
      rw [Call.handouts_pulling hc] at hx
      obtain ⟨y, hy, rfl⟩ := List.mem_map.mp hx
      refine ⟨c, rfl, rfl, (Client.tokenAll s.supply (s.lane c.receiver position).number s.issued
        (s.network.take link c.most).1).map fun y => y.2.message y.1, ?_,
        List.mem_map.mpr ⟨_, List.mem_map_of_mem hy, rfl⟩⟩
      simp only [Call.step, Receive.step, hc]
      rfl
    | _ =>
      rw [Call.handouts_eq_nil (hc ▸ rfl)] at hx
      contradiction
  | _ => contradiction

/-! ## Opening another lane -/

/-- Whether a receive is about to open another lane. -/
def Receive.Point.isExpanding : Receive.Point → Bool
  | .expanding _ => true
  | .opening .. => true
  | .linking .. => true
  | _ => false

/-- **Another lane is opened** only by who has found none idle. -/
theorem Receive.isExpanding_step {now : Nat} {s : Client} {c k : Receive}
    (hp : (c.step now s).progress = .on k) (hk : k.point.isExpanding = true) :
    c.point.isExpanding = true ∨ ∃ list, c.point = .surveying list ∧
      ∀ p ∈ (s.receiver c.receiver).listed, s.isIdle c.receiver p = false := by
  obtain ⟨point, rfl, ho⟩ := Receive.onward_of_step hp
  cases ho with
  | expands list list' hc hn => exact .inr ⟨list, hc, hn⟩
  | opens list connection hc | links list connection problem hc =>
    rw [hc]
    exact .inl rfl
  | _ => contradiction

/-- Nobody else adds a lane. -/
theorem Deed.length_lanes {s t : Client} {c : Call} {sets : List LaneSet}
    {p : Progress Call Outcome} (h : Deed s c sets p) (ht : t.receivers = sets) {r : Nat}
    (hr : r < s.receivers.length) :
    (t.receiver r).lanes.length = (s.receiver r).lanes.length ∨
      ∃ k : Receive, c = .receiving k ∧ k.receiver = r ∧ k.point.isExpanding = true ∧
        (t.receiver r).lanes.length = (s.receiver r).lanes.length + 1 ∧
        ∀ k', p = .on (.receiving k') → k'.point.isExpanding = false := by
  have hset {r' : Nat} {set : LaneSet} (hs : t.receivers = (s.setReceiver r' set).receivers)
      (hl : set.lanes.length = (s.receiver r').lanes.length) :
      (t.receiver r).lanes.length = (s.receiver r).lanes.length := by
    rw [Client.receiver_congr hs]
    obtain he | ⟨rfl, -, he⟩ := Client.receiver_setReceiver s r' r set
    · rw [he]
    · rw [he, hl]
  cases h with
  | creates c path link =>
    have hs : t.receivers =
      { s with receivers := s.receivers ++ [LaneSet.fresh path link] }.receivers := ht
    rw [Client.receiver_congr hs, Client.receiver_append _ hr]
    exact .inl rfl
  | adds c list ticket link problem hc p hp =>
    rw [Client.receiver_congr ht]
    by_cases he : r = c.receiver
    · subst he
      refine .inr ⟨c, rfl, rfl, by rw [hc]; rfl, ?_, fun k hk => ?_⟩
      · rw [Client.receiver_addLane_self hr, List.length_append]
        rfl
      · obtain ⟨e, rfl⟩ | ⟨ticket', deadline, rfl⟩ := hp <;> cases hk
        rfl
    · rw [Client.receiver_addLane_ne he]
      exact .inl rfl
  | handsOut | asks | misses | disposes => exact .inl (hset ht List.length_set)
  | marks | unlists => exact .inl (hset ht rfl)
  | _ => exact .inl (by rw [Client.receiver_congr ht])

end PeekLock.Remote
