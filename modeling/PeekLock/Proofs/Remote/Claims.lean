import PeekLock.Proofs.Remote.Deeds
import PeekLock.Proofs.Remote.Gates

/-!
# PeekLock.Proofs.Remote.Claims

Who has a claim on which gate.

Where a call is suspended tells which tickets it has, and which of them it
has entered with.  The gates of a client know these tickets and no others:
a step exchanges the claims of its call, and leaves those of all other
calls as they are (`Call.step_keeps`).
-/

namespace PeekLock.Remote

/-! ## Claims -/

/-- A ticket that a call has drawn. -/
structure Claim where
  site : Site
  ticket : Ticket
  /-- Whether the call has entered. -/
  entered : Bool

namespace Claim

/-- A claim of a call that waits. -/
abbrev waiting (site : Site) (number : Nat) (access : Access) : Claim :=
  ⟨site, ⟨number, access⟩, false⟩

/-- A claim of a call that has entered, to be alone. -/
abbrev holding (site : Site) (number : Nat) : Claim := ⟨site, ⟨number, .sole⟩, true⟩

end Claim

/-- Whether there is such a site. -/
def Site.IsIn (s : Client) : Site → Prop
  | .lane r position => position < (s.receiver r).lanes.length
  | _ => True

/-- The claims of a send. -/
def Send.claims : Send → List Claim
  | .creating _ _ _ ticket => [.waiting .connection ticket .sole]
  | _ => []

/-- The claims of the creation of a receiver. -/
def Open.claims : Open → List Claim
  | .opening _ ticket => [.waiting .connection ticket .sole]
  | .linking _ ticket _ => [.holding .connection ticket]
  | _ => []

/-- The claims of a receive. -/
def Receive.claims (c : Receive) : List Claim :=
  match c.point with
  | .arriving => []
  | .surveying ticket => [.waiting (.list c.receiver) ticket .shared]
  | .expanding ticket => [.waiting (.list c.receiver) ticket .sole]
  | .opening list ticket =>
    [.holding (.list c.receiver) list, .waiting .connection ticket .sole]
  | .linking list ticket _ =>
    [.holding (.list c.receiver) list, .holding .connection ticket]
  | .pulling position ticket _ _ => [.holding (.lane c.receiver position) ticket]

/-- The claims of a settlement. -/
def Settle.claims (c : Settle) : List Claim :=
  match c.point with
  | .arriving => []
  | .finding _ ticket => [.waiting (.list c.receiver) ticket .shared]
  | .entering position ticket => [.waiting (.lane c.receiver position) ticket .sole]
  | .asking position ticket _ => [.holding (.lane c.receiver position) ticket]

/-- The claims of a close. -/
def Close.claims (c : Close) : List Claim :=
  match c.point with
  | .marking => []
  | .taking ticket => [.waiting (.list c.receiver) ticket .sole]
  | .entering position ticket _ _ => [.waiting (.lane c.receiver position) ticket .sole]
  | .disposing position ticket _ _ _ => [.holding (.lane c.receiver position) ticket]

/-- The claims of a call. -/
def Call.claims : Call → List Claim
  | .sending c => c.claims
  | .opening c => c.claims
  | .receiving c => c.claims
  | .settling c => c.claims
  | .closing c => c.claims

/-- The claims of a call that may have ended. -/
def claimsOf {κ α : Type} (claims : κ → List Claim) : Progress κ α → List Claim
  | .on c => claims c
  | .done _ => []

theorem claimsOf_map {κ κ' α α' : Type} {claims : κ → List Claim} {claims' : κ' → List Claim}
    {point : κ → κ'} {result : α → α'} (h : ∀ k, claims' (point k) = claims k)
    (p : Progress κ α) : claimsOf claims' (p.map point result) = claimsOf claims p := by
  cases p with
  | on k => exact h k
  | done a => rfl

/-- The tickets for a site among some claims. -/
def ticketsAt (site : Site) (claims : List Claim) : List Ticket :=
  (claims.filter (·.site = site)).map (·.ticket)

theorem ticketsAt_cons_self (k : Claim) (claims : List Claim) :
    ticketsAt k.site (k :: claims) = k.ticket :: ticketsAt k.site claims := by
  simp [ticketsAt]

theorem ticketsAt_cons_ne {site : Site} {k : Claim} (h : k.site ≠ site) (claims : List Claim) :
    ticketsAt site (k :: claims) = ticketsAt site claims := by
  simp [ticketsAt, h]

theorem mem_ticketsAt {k : Claim} {claims : List Claim} (h : k ∈ claims) :
    k.ticket ∈ ticketsAt k.site claims :=
  List.mem_map_of_mem (List.mem_filter.mpr ⟨h, decide_eq_true rfl⟩)

/-! ## The gates of a client -/

namespace Client

theorem gate_draw (s : Client) (site other : Site) (a : Access) :
    (s.draw site a).2.gate other =
      if other = site then ((s.gate site).draw a).2 else s.gate other :=
  Table.getD_put _ _ _ _ _

theorem gate_leave (s : Client) (site other : Site) (number : Nat) :
    (s.leave site number).gate other =
      if other = site then (s.gate site).leave number else s.gate other :=
  Table.getD_put _ _ _ _ _

/-- The gates know these claims and no others. -/
structure Keeps (s : Client) (claims : List Claim) : Prop where
  gates : ∀ site, (s.gate site).Keeps (ticketsAt site claims)
  entered : ∀ k ∈ claims, k.entered = true → k.ticket ∈ (s.gate k.site).inside
  placed : ∀ k ∈ claims, k.site.IsIn s

/-- A client that has done nothing yet has no claims to know of. -/
theorem keeps_new (network : Network) (supply : Identifier.Supply) :
    Keeps { network, supply } [] where
  gates _ := Gate.keeps_nil
  entered := nofun
  placed := nofun

namespace Keeps

variable {s t : Client} {claims : List Claim} {k : Claim}

theorem of_perm (h : s.Keeps claims) {others : List Claim} (hp : claims.Perm others) :
    s.Keeps others where
  gates site := (h.gates site).of_perm ((hp.filter _).map _)
  entered k hk := h.entered k (hp.mem_iff.mpr hk)
  placed k hk := h.placed k (hp.mem_iff.mpr hk)

/-- Nothing changes while the gates stay as they are and no lane goes away. -/
theorem of_frame (h : s.Keeps claims) (hg : t.gates = s.gates)
    (hl : ∀ r, (s.receiver r).lanes.length ≤ (t.receiver r).lanes.length) : t.Keeps claims where
  gates site := by
    rw [gate, hg]
    exact h.gates site
  entered k hk he := by
    rw [gate, hg]
    exact h.entered k hk he
  placed k hk := by
    have hp := h.placed k hk
    obtain ⟨site, ticket, entered⟩ := k
    cases site with
    | lane r position => exact Nat.lt_of_lt_of_le hp (hl r)
    | _ => trivial

/-- A claim that is admitted is inside. -/
theorem inside_of_admits (h : s.Keeps claims) (hk : k ∈ claims)
    (ha : s.admits k.site k.ticket.number = true) : k.ticket ∈ (s.gate k.site).inside :=
  (h.gates k.site).inside_of_admits (mem_ticketsAt hk) ha

/-- The ticket of a claim is not that of another for the same site. -/
theorem number_ne (h : s.Keeps (k :: claims)) {j : Claim} (hj : j ∈ claims)
    (hs : j.site = k.site) : j.ticket.number ≠ k.ticket.number := by
  have hd := (h.gates k.site).distinct
  rw [ticketsAt_cons_self, List.map_cons, List.nodup_cons] at hd
  intro hn
  refine hd.1 ?_
  rw [← hn, ← hs]
  exact List.mem_map_of_mem (mem_ticketsAt hj)

theorem draw (h : s.Keeps claims) {site : Site} (hs : site.IsIn s) (a : Access) :
    (s.draw site a).2.Keeps (.waiting site (s.draw site a).1 a :: claims) where
  gates other := by
    rw [gate_draw]
    split
    · next ho =>
      rw [ho]
      refine (ticketsAt_cons_self (.waiting site (s.draw site a).1 a) claims) ▸ ?_
      exact (h.gates site).draw a
    · next ho =>
      rw [ticketsAt_cons_ne (Ne.symm ho)]
      exact h.gates other
  entered k hk he := by
    obtain rfl | hk := List.mem_cons.mp hk
    · contradiction
    · have hi := h.entered k hk he
      rw [gate_draw]
      split
      · next ho =>
        rw [ho] at hi
        exact Gate.inside_draw hi a
      · exact hi
  placed k hk := by
    obtain rfl | hk := List.mem_cons.mp hk
    · exact hs
    · exact h.placed k hk

theorem draw_connection (h : s.Keeps claims) :
    (s.draw .connection .sole).2.Keeps
      (.waiting .connection (s.draw .connection .sole).1 .sole :: claims) :=
  h.draw (show Site.IsIn s .connection from trivial) .sole

theorem draw_list (h : s.Keeps claims) (r : Nat) (a : Access) :
    (s.draw (.list r) a).2.Keeps (.waiting (.list r) (s.draw (.list r) a).1 a :: claims) :=
  h.draw (show Site.IsIn s (.list r) from trivial) a

theorem draw_lane (h : s.Keeps claims) {r p : Nat} (hp : p < (s.receiver r).lanes.length) :
    (s.draw (.lane r p) .sole).2.Keeps
      (.waiting (.lane r p) (s.draw (.lane r p) .sole).1 .sole :: claims) :=
  h.draw (show Site.IsIn s (.lane r p) from hp) .sole

theorem leave (h : s.Keeps (k :: claims)) : (s.leave k.site k.ticket.number).Keeps claims where
  gates other := by
    have hg := h.gates other
    rw [gate_leave]
    split
    · next ho =>
      rw [ho, ticketsAt_cons_self] at hg
      rw [ho]
      exact hg.leave
    · next ho =>
      rw [ticketsAt_cons_ne (Ne.symm ho)] at hg
      exact hg
  entered j hj he := by
    have hi := h.entered j (List.mem_cons_of_mem _ hj) he
    rw [gate_leave]
    split
    · next ho =>
      rw [ho] at hi
      exact Gate.inside_leave hi (h.number_ne hj ho)
    · exact hi
  placed j hj := h.placed j (List.mem_cons_of_mem _ hj)

/-- A claim may enter once its ticket is inside. -/
theorem enter (h : s.Keeps (k :: claims)) (hi : k.ticket ∈ (s.gate k.site).inside) :
    s.Keeps ({ k with entered := true } :: claims) where
  gates other := by
    have hg := h.gates other
    by_cases ho : k.site = other
    · subst ho
      rw [ticketsAt_cons_self] at hg
      exact (ticketsAt_cons_self { k with entered := true } claims) ▸ hg
    · rw [ticketsAt_cons_ne ho] at hg
      exact (ticketsAt_cons_ne (k := { k with entered := true }) ho claims) ▸ hg
  entered j hj he := by
    obtain rfl | hj := List.mem_cons.mp hj
    · exact hi
    · exact h.entered j (List.mem_cons_of_mem _ hj) he
  placed j hj := by
    obtain rfl | hj := List.mem_cons.mp hj
    · exact h.placed k List.mem_cons_self
    · exact h.placed j (List.mem_cons_of_mem _ hj)

/-- A call that draws a ticket for a gate that nobody uses enters at once. -/
theorem draw_free (h : s.Keeps claims) {site : Site} (hs : site.IsIn s)
    (hf : (s.gate site).isFree = true) :
    (s.draw site .sole).2.Keeps (.holding site (s.draw site .sole).1 :: claims) := by
  refine (h.draw hs .sole).enter ?_
  change _ ∈ ((s.draw site .sole).2.gate site).inside
  rw [gate_draw, if_pos rfl]
  have hnil := (h.gates site).tickets_eq_nil (List.isEmpty_iff.mp hf)
  exact Gate.inside_draw_of_free (hnil ▸ h.gates site) .sole

/-- A gate that nobody has a claim on is free. -/
theorem isFree (h : s.Keeps claims) {site : Site} (hn : ∀ k ∈ claims, k.site ≠ site) :
    (s.gate site).isFree = true := by
  have hnil : ticketsAt site claims = [] :=
    List.map_eq_nil_iff.mpr (List.filter_eq_nil_iff.mpr fun k hk => by simpa using hn k hk)
  have hk := (h.gates site).known
  rw [hnil] at hk
  exact List.isEmpty_iff.mpr (List.append_eq_nil_iff.mp hk.eq_nil).1

/-- Of two claims that are inside, neither is sole. -/
theorem shared_of_inside (h : s.Keeps (k :: claims)) {j : Claim} (hj : j ∈ claims)
    (hs : j.site = k.site) (hk : k.ticket ∈ (s.gate k.site).inside)
    (hi : j.ticket ∈ (s.gate k.site).inside) : k.ticket.access = .shared := by
  cases ha : k.ticket.access with
  | shared => rfl
  | sole =>
    have he := (h.gates k.site).eq_of_sole hk ha hi
    exact (h.number_ne hj hs (congrArg Ticket.number he)).elim

end Keeps

end Client

/-! ## Steps -/

open Client

section

variable {now : Nat} {s t : Client} {claims : List Claim}

theorem Client.Keeps.ask {request : Request} {problem : Option String} (h : s.Keeps claims)
    (ha : s.ask request = (problem, t)) : t.Keeps claims := by
  have ht : (s.ask request).2 = t := congrArg Prod.snd ha
  rw [← ht]
  exact h.of_frame rfl fun _ => Nat.le_refl _

theorem Client.Keeps.linked {entity : EntityPath} {problem : Option String}
    {result : Except BusError Nat} (h : s.Keeps claims)
    (ho : PeekLock.Remote.linked s entity problem = (result, t)) : t.Keeps claims := by
  cases problem with
  | some problem =>
    cases ho
    exact h
  | none =>
    cases ho
    exact h.of_frame rfl fun _ => Nat.le_refl _

theorem Send.step_keeps {c : Send} (h : s.Keeps (c.claims ++ claims)) :
    (c.step s).state.Keeps (claimsOf Send.claims (c.step s).progress ++ claims) := by
  have hissue (issued : Nat) (h : s.Keeps claims) : { s with issued := issued }.Keeps claims :=
    h.of_frame rfl fun _ => Nat.le_refl _
  cases c with
  | buildingOne target body options =>
    simp only [Send.step]
    split
    · exact h
    · exact (hissue _ h).draw_connection
  | buildingBatch target bodies options =>
    simp only [Send.step]
    split
    · exact h
    · exact hissue _ h
    · exact (hissue _ h).draw_connection
  | creating target messages receipt ticket =>
    simp only [Send.step]
    split
    · next ha => exact (h.ask ha).leave
    · next ha => exact (h.ask ha).leave
  | sending target messages receipt =>
    simp only [Send.step]
    split
    · next ha => exact h.ask ha
    · next ha => exact (h.ask ha).of_frame rfl fun _ => Nat.le_refl _
  | disposing target result => exact h.of_frame rfl fun _ => Nat.le_refl _

theorem Open.step_keeps {c : Open} (h : s.Keeps (c.claims ++ claims))
    (hready : c.isReady s = true) :
    (c.step s).state.Keeps (claimsOf Open.claims (c.step s).progress ++ claims) := by
  cases c with
  | checking entity =>
    simp only [Open.step]
    split
    · exact h
    · exact h.draw_connection
  | opening path ticket =>
    have hi := h.inside_of_admits List.mem_cons_self hready
    exact (h.enter hi).ask rfl
  | linking path ticket problem =>
    simp only [Open.step]
    split
    · next ho => exact (h.linked ho).leave
    · next link t ho =>
      refine (h.linked ho).leave.of_frame rfl fun r => ?_
      change (t.receiver r).lanes.length ≤ _
      by_cases hr : r < t.receivers.length
      · exact Nat.le_of_eq (congrArg (·.lanes.length) (receiver_append _ hr).symm)
      · rw [receiver_of_le (Nat.le_of_not_lt hr)]
        exact Nat.zero_le _

/-! ### Receiving -/

theorem Receive.pull_keeps {c : Receive} {logs : List LogRecord} {position ticket : Nat}
    (h : s.Keeps (.holding (.lane c.receiver position) ticket :: claims)) :
    (c.pull now s logs position ticket).state.Keeps
      (claimsOf Receive.claims (c.pull now s logs position ticket).progress ++ claims) := by
  rw [Receive.pull]
  split
  · exact h.leave
  · split
    · next ha => exact (h.ask ha).leave
    · next ha => exact h.ask ha

/-- A lane that was just added belongs to nobody. -/
theorem keeps_addLane {r : Nat} (h : s.Keeps claims) (hr : r < s.receivers.length) (link : Nat) :
    let (position, t) := s.addLane r link
    (t.draw (.lane r position) .sole).2.Keeps
      (.holding (.lane r position) (t.draw (.lane r position) .sole).1 :: claims) := by
  have hlength : ((s.addLane r link).2.receiver r).lanes.length =
      (s.receiver r).lanes.length + 1 := by
    rw [addLane, receiver_setReceiver_self hr, List.length_append]
    rfl
  have hkeeps : (s.addLane r link).2.Keeps claims := by
    refine h.of_frame rfl fun r' => ?_
    obtain he | ⟨rfl, -, -⟩ := receiver_setReceiver s r r'
      { s.receiver r with
        lanes := (s.receiver r).lanes ++ [⟨(s.receiver r).listed.length, some link, []⟩]
        listed := (s.receiver r).listed ++ [(s.receiver r).lanes.length] }
    · exact Nat.le_of_eq (congrArg (·.lanes.length) he.symm)
    · rw [hlength]
      exact Nat.le_succ _
  refine hkeeps.draw_free (by rw [Site.IsIn, hlength]; exact Nat.lt_succ_self _) ?_
  refine hkeeps.isFree fun k hk hs => ?_
  have hp := h.placed k hk
  rw [hs] at hp
  exact Nat.lt_irrefl _ hp

theorem Client.Keeps.setLane {r : Nat} (h : s.Keeps claims) (position : Nat) (l : Lane) :
    (s.setLane r position l).Keeps claims :=
  h.of_frame rfl fun r' => Nat.le_of_eq (length_lanes_setLane s r position l r').symm

theorem Client.Keeps.deliver {r : Nat} (h : s.Keeps claims) (position : Nat)
    (messages : List Incoming) : (s.deliver r position messages).2.Keeps claims :=
  (h.setLane position _).of_frame rfl fun _ => Nat.le_refl _

theorem Receive.step_keeps {c : Receive} (h : s.Keeps (c.claims ++ claims))
    (hready : c.isReady now s = true) (hr : c.receiver < s.receivers.length)
    (hl : ∀ p ∈ (s.receiver c.receiver).listed, p < (s.receiver c.receiver).lanes.length) :
    (c.step now s).state.Keeps (claimsOf Receive.claims (c.step now s).progress ++ claims) := by
  obtain ⟨r, most, timeout, point⟩ := c
  cases point with
  | arriving =>
    simp only [Receive.step]
    split
    · exact h
    · exact h.draw_list r .shared
  | surveying list =>
    have hleft : (s.leave (.list r) list).Keeps claims := h.leave
    simp only [Receive.step]
    split
    · next position hf =>
      have hidle := List.find?_some hf
      rw [isIdle, Bool.and_eq_true, Bool.and_eq_true] at hidle
      exact Receive.pull_keeps
        (hleft.draw_free (hl position (List.mem_of_find?_eq_some hf)) hidle.1.1)
    · exact hleft.draw_list r .sole
  | expanding list =>
    simp only [Receive.step]
    split
    · exact h.leave
    · have hi := h.inside_of_admits List.mem_cons_self hready
      exact ((h.enter hi).draw_connection).of_perm (.swap _ _ _)
  | opening list connection =>
    have hswap := h.of_perm (.swap _ _ _)
    have hi := hswap.inside_of_admits List.mem_cons_self hready
    exact ((hswap.enter hi).ask rfl).of_perm (.swap _ _ _)
  | linking list connection problem =>
    have hswap := h.of_perm (.swap _ _ _)
    simp only [Receive.step]
    split
    · next ho => exact (hswap.linked ho).leave.leave
    · next link t ho =>
      rw [← receivers_linked ho] at hr
      have hadded := keeps_addLane (hswap.linked ho).leave hr link
      exact Receive.pull_keeps (hadded.of_perm (.swap _ _ _)).leave
  | pulling position ticket link deadline =>
    have hn : { s with network := (s.network.take link most).2 }.Keeps
        (.holding (.lane r position) ticket :: claims) := h.of_frame rfl fun _ => Nat.le_refl _
    exact (hn.deliver position _).leave

/-! ### Settling and closing -/

theorem Settle.step_keeps {c : Settle} (h : s.Keeps (c.claims ++ claims))
    (hready : c.isReady s = true)
    (hl : ∀ p ∈ (s.receiver c.receiver).listed, p < (s.receiver c.receiver).lanes.length) :
    (c.step s).state.Keeps (claimsOf Settle.claims (c.step s).progress ++ claims) := by
  obtain ⟨r, token, verdict, point⟩ := c
  cases point with
  | arriving =>
    simp only [Settle.step]
    split
    · exact h
    · split
      · exact h
      · exact h.draw_list r .shared
  | finding number list =>
    have hleft : (s.leave (.list r) list).Keeps claims := h.leave
    simp only [Settle.step]
    split
    · exact hleft
    · next position hp => exact hleft.draw_lane (hl position (List.mem_of_getElem? hp))
  | entering position ticket =>
    simp only [Settle.step]
    split
    · exact h.leave
    · have hi := h.inside_of_admits List.mem_cons_self hready
      split
      · exact (h.setLane position _).leave
      · exact ((h.enter hi).setLane position _).ask rfl
  | asking position ticket problem => exact h.leave

theorem Client.Keeps.setReceiver {r : Nat} (h : s.Keeps claims) (l : LaneSet)
    (hl : l.lanes = (s.receiver r).lanes) : (s.setReceiver r l).Keeps claims := by
  refine h.of_frame rfl fun r' => ?_
  obtain he | ⟨rfl, -, he⟩ := receiver_setReceiver s r r' l
  · exact Nat.le_of_eq (congrArg (·.lanes.length) he.symm)
  · exact Nat.le_of_eq (by rw [he, hl])

theorem Close.goOn_keeps {c : Close} {tally : Close.Tally} {rest : List Nat} (h : s.Keeps claims)
    (hl : ∀ p ∈ rest, p < (s.receiver c.receiver).lanes.length) :
    (c.goOn s tally rest).state.Keeps
      (claimsOf Close.claims (c.goOn s tally rest).progress ++ claims) := by
  cases rest with
  | nil => exact h
  | cons position rest => exact h.draw_lane (hl position List.mem_cons_self)

/-- The lanes that a close has not come to yet. -/
def Close.rest (s : Client) (c : Close) : List Nat :=
  match c.point with
  | .marking => []
  | .taking _ => (s.receiver c.receiver).listed
  | .entering _ _ rest _ => rest
  | .disposing _ _ _ rest _ => rest

theorem Close.step_keeps {c : Close} (h : s.Keeps (c.claims ++ claims))
    (hready : c.isReady s = true)
    (hl : ∀ p ∈ c.rest s, p < (s.receiver c.receiver).lanes.length) :
    (c.step s).state.Keeps (claimsOf Close.claims (c.step s).progress ++ claims) := by
  obtain ⟨r, point⟩ := c
  cases point with
  | marking =>
    simp only [Close.step]
    split
    · exact h
    · exact (h.setReceiver { s.receiver r with closed := true } rfl).draw_list r .sole
  | taking list =>
    have hset := h.setReceiver { s.receiver r with listed := [] } rfl
    refine Close.goOn_keeps hset.leave fun p hp => ?_
    obtain he | ⟨-, -, he⟩ := receiver_setReceiver s r r { s.receiver r with listed := [] }
    · exact Nat.lt_of_lt_of_eq (hl p hp) (congrArg (·.lanes.length) he.symm)
    · exact Nat.lt_of_lt_of_eq (hl p hp) (congrArg (·.lanes.length) he.symm)
  | entering position ticket rest tally =>
    simp only [Close.step]
    split
    · refine Close.goOn_keeps (h.setLane position _).leave fun p hp => ?_
      exact Nat.lt_of_lt_of_eq (hl p hp) (length_lanes_setLane s r position _ r).symm
    · have hi := h.inside_of_admits List.mem_cons_self hready
      exact ((h.enter hi).setLane position _).ask rfl
  | disposing position ticket problem rest tally => exact Close.goOn_keeps h.leave hl

end

end PeekLock.Remote
