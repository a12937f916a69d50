import PeekLock.Proofs.Remote.Books
import PeekLock.Remote.Register

/-!
# PeekLock.Proofs.Remote.Links

What one step does to the links.

For the links it matters which of them the lanes of a receiver have, what is
listed, and whether the receiver is closed.  Only opening a link and the
steps of a close change that; all other steps leave the receivers alike
(`Call.alike_step`).
-/

namespace PeekLock.Remote

/-- The links of the lanes. -/
def LaneSet.links (set : LaneSet) : List (Option Nat) := set.lanes.map (·.link)

/-- The same links, listed in the same way, and closed or not. -/
structure LaneSet.Alike (a b : LaneSet) : Prop where
  links : b.links = a.links
  listed : b.listed = a.listed
  closed : b.closed = a.closed

theorem LaneSet.Alike.refl (a : LaneSet) : a.Alike a := ⟨rfl, rfl, rfl⟩

theorem LaneSet.Alike.length_lanes {a b : LaneSet} (h : a.Alike b) :
    b.lanes.length = a.lanes.length := by
  have hlength := congrArg List.length h.links
  rwa [LaneSet.links, LaneSet.links, List.length_map, List.length_map] at hlength

namespace Client

variable {s t : Client}

/-- The receivers are alike. -/
def Alike (s t : Client) : Prop := ∀ r, (s.receiver r).Alike (t.receiver r)

theorem Alike.of_receivers (h : t.receivers = s.receivers) : s.Alike t := fun r => by
  rw [receiver_congr h]
  exact .refl _

/-- A lane that keeps its link. -/
theorem Alike.setLane {r p : Nat} {l : Lane} (h : l.link = (s.lane r p).link) :
    s.Alike (s.setLane r p l) := by
  intro r'
  obtain he | ⟨rfl, -, he⟩ := receiver_setReceiver s r r'
    { s.receiver r with lanes := (s.receiver r).lanes.set p l }
  · rw [Client.setLane, he]
    exact .refl _
  · rw [Client.setLane, he]
    refine ⟨?_, rfl, rfl⟩
    rw [LaneSet.links, LaneSet.links, List.map_set, h]
    refine List.ext_getElem? fun q => ?_
    rw [List.getElem?_set]
    split
    · next hq =>
      subst hq
      split
      · next hp =>
        rw [List.length_map] at hp
        rw [List.getElem?_map, getElem?_lane hp]
        rfl
      · next hp =>
        rw [List.getElem?_eq_none (Nat.le_of_not_lt hp)]
    · rfl

/-- A link is opened for a receiver, which has another lane then. -/
structure Opens (s t : Client) (o : Opening) : Prop where
  links : (t.receiver o.receiver).links = (s.receiver o.receiver).links ++ [some o.link]
  listed : (t.receiver o.receiver).listed =
    (s.receiver o.receiver).listed ++ [(s.receiver o.receiver).lanes.length]
  closed : (t.receiver o.receiver).closed = (s.receiver o.receiver).closed
  others : ∀ r, r ≠ o.receiver → (s.receiver r).Alike (t.receiver r)

/-- A receiver is created. -/
theorem Opens.append (s : Client) (path : EntityPath)
    (ht : t.receivers = s.receivers ++ [LaneSet.fresh path s.network.links.length]) :
    s.Opens t ⟨s.receivers.length, s.network.links.length⟩ := by
  have hs : t.receivers = { s with
    receivers := s.receivers ++ [LaneSet.fresh path s.network.links.length] }.receivers := ht
  have hself : t.receiver s.receivers.length = LaneSet.fresh path s.network.links.length :=
    (receiver_congr hs _).trans (receiver_append_self s _)
  have hnone : s.receiver s.receivers.length = default := receiver_of_le (Nat.le_refl _)
  refine ⟨?_, ?_, ?_, fun r hr => ?_⟩
  · rw [hself, hnone]
    rfl
  · rw [hself, hnone]
    rfl
  · rw [hself, hnone]
    rfl
  · change r ≠ s.receivers.length at hr
    rw [receiver_congr hs]
    by_cases hlt : r < s.receivers.length
    · rw [receiver_append _ hlt]
      exact .refl _
    · rw [receiver_of_le (Nat.le_of_not_lt hlt), receiver_of_le]
      · exact .refl _
      · rw [List.length_append, List.length_singleton]
        omega

/-- A receiver gets another lane. -/
theorem Opens.addLane {r : Nat} (hr : r < s.receivers.length)
    (ht : t.receivers = (s.addLane r s.network.links.length).2.receivers) :
    s.Opens t ⟨r, s.network.links.length⟩ := by
  have hself := (receiver_congr ht r).trans (receiver_addLane_self hr _)
  refine ⟨?_, ?_, ?_, fun r' hr' => ?_⟩
  · rw [hself, LaneSet.links, List.map_append]
    rfl
  · rw [hself]
  · rw [hself]
  · rw [receiver_congr ht, receiver_addLane_ne hr']
    exact .refl _

end Client

/-! ## Steps -/

/-- Whether a call closes a receiver. -/
def Call.isClosing : Call → Bool
  | .closing _ => true
  | _ => false

/-- What a step does that opens no link and does not belong to a close. -/
theorem Deed.alike {s t : Client} {c : Call} {sets : List LaneSet} {p : Progress Call Outcome}
    (h : Deed s c sets p) (ht : t.receivers = sets) (hc : c.isClosing = false)
    (ho : ∀ k, c ≠ .opening k)
    (hl : ∀ k, c = .receiving k → ∀ list ticket problem, k.point ≠ .linking list ticket problem) :
    s.Alike t := by
  have hlane {r q : Nat} {l : Lane} (hs : t.receivers = (s.setLane r q l).receivers)
      (hlink : l.link = (s.lane r q).link) : s.Alike t := fun r' => by
    rw [Client.receiver_congr hs]
    exact Client.Alike.setLane hlink r'
  cases h with
  | creates => exact (ho _ rfl).elim
  | adds c list ticket link problem hp => exact (hl c rfl list ticket problem hp).elim
  | handsOut | asks | misses => exact hlane ht rfl
  | marks | unlists | disposes => contradiction
  | _ => exact .of_receivers ht

/-- **Most steps leave the links alone.** -/
theorem Call.alike_step {now : Nat} {s : Client} {c : Call} (hf : c.Fits s)
    (hc : c.isClosing = false) (ho : c.opening? s = none) : s.Alike (c.step now s).state := by
  cases c with
  | opening c =>
    cases c with
    | checking entity =>
      refine .of_receivers ?_
      simp only [Call.step, Step.map, Open.step]
      split <;> rfl
    | opening path ticket => exact .of_receivers rfl
    | linking path ticket problem =>
      cases problem with
      | some problem => exact .of_receivers rfl
      | none => contradiction
  | receiving c =>
    cases hp : c.point with
    | linking list ticket problem =>
      cases problem with
      | some problem =>
        refine .of_receivers ?_
        simp only [Call.step, Step.map, Receive.step, hp, linked]
        rfl
      | none =>
        simp only [Call.opening?, hp] at ho
        contradiction
    | _ =>
      refine (Call.deed now hf.known).alike rfl rfl (fun k hk => by cases hk)
        fun k hk list ticket problem hl => ?_
      cases hk
      rw [hp] at hl
      contradiction
  | closing c => contradiction
  | _ =>
    exact (Call.deed now hf.known).alike rfl rfl (fun k hk => by cases hk) fun k hk => by cases hk

/-- A link is opened at the end of creating a receiver, or by a receive that needs another lane. -/
theorem Call.eq_of_opening? {s : Client} {c : Call} {o : Opening} (h : c.opening? s = some o) :
    (∃ path ticket, c = .opening (.linking path ticket none) ∧
        o = ⟨s.receivers.length, s.network.links.length⟩) ∨
      ∃ (k : Receive) (list ticket : Nat), c = .receiving k ∧ k.point = .linking list ticket none ∧
        o = ⟨k.receiver, s.network.links.length⟩ := by
  cases c with
  | opening c =>
    cases c with
    | linking path ticket problem =>
      cases problem with
      | none =>
        cases h
        exact .inl ⟨path, ticket, rfl, rfl⟩
      | some problem => contradiction
    | _ => contradiction
  | receiving c =>
    simp only [Call.opening?] at h
    split at h
    · next list ticket hp =>
      cases h
      exact .inr ⟨c, list, ticket, rfl, hp, rfl⟩
    · contradiction
  | _ => contradiction

/-- **Opening a link** adds a lane. -/
theorem Call.opens_step {now : Nat} {s : Client} {c : Call} (hf : c.Fits s) {o : Opening}
    (ho : c.opening? s = some o) : s.Opens (c.step now s).state o := by
  obtain ⟨path, ticket, rfl, rfl⟩ | ⟨c, list, ticket, rfl, hp, rfl⟩ := Call.eq_of_opening? ho
  · exact .append s path rfl
  · refine .addLane (Receive.Fits.known hf) ?_
    simp only [Call.step, Step.map, Receive.step, hp, linked]
    generalize hx : c.pull now _ _ _ _ = x
    have hlane := Client.lane_addLane_self (r := c.receiver)
      (s := { s with network := (s.network.addLink (s.receiver c.receiver).entity).2 })
      (Receive.Fits.known (s := s) hf) s.network.links.length
    exact (Receive.pull_cases hx (congrArg Lane.link hlane)).1

/-- Whether a receive is about to open a link: it is alone with the list of the lanes. -/
def Receive.Point.isOpening : Receive.Point → Bool
  | .opening .. => true
  | .linking .. => true
  | _ => false

/-- Whoever opens a link creates a receiver, or is alone with the list of its lanes. -/
theorem Call.opening_cases {s : Client} {c : Call} {o : Opening} (h : c.opening? s = some o) :
    o.link = s.network.links.length ∧ (o.receiver = s.receivers.length ∨
      ∃ k : Receive, c = .receiving k ∧ k.receiver = o.receiver ∧ k.point.isOpening = true) := by
  obtain ⟨path, ticket, rfl, rfl⟩ | ⟨c, list, ticket, rfl, hp, rfl⟩ := Call.eq_of_opening? h
  · exact ⟨rfl, .inl rfl⟩
  · exact ⟨rfl, .inr ⟨c, rfl, rfl, by rw [hp]; rfl⟩⟩

/-- Looking at the list of the lanes keeps no lane busy. -/
theorem Client.isIdle_leave_list (s : Client) (r list p : Nat) :
    (s.leave (.list r) list).isIdle r p = s.isIdle r p := by
  rw [Client.isIdle, Client.isIdle, Client.gate_leave, if_neg fun he => by cases he]
  rfl

/-- Where a receive can be suspended next. -/
inductive Receive.Onward (s : Client) (c : Receive) : Receive.Point → Prop where
  | surveys (list : Nat) (hc : c.point = .arriving) : Onward s c (.surveying list)
  | expands (list list' : Nat) (hc : c.point = .surveying list)
    (hn : ∀ p ∈ (s.receiver c.receiver).listed, s.isIdle c.receiver p = false) :
    Onward s c (.expanding list')
  | opens (list connection : Nat) (hc : c.point = .expanding list)
    (ho : (s.receiver c.receiver).closed = false) : Onward s c (.opening list connection)
  | links (list connection : Nat) (problem : Option String)
    (hc : c.point = .opening list connection) : Onward s c (.linking list connection problem)
  | pulls (position ticket link deadline : Nat) :
    Onward s c (.pulling position ticket link deadline)

/-- A receive that has a lane waits for messages, if it does not end. -/
theorem Receive.onward_of_pull {now : Nat} {s t : Client} {c k : Receive} {logs : List LogRecord}
    {position ticket : Nat} {x : Step Client Receive Result}
    (hx : c.pull now t logs position ticket = x) (hp : x.progress = .on k) :
    ∃ point, k = { c with point := point } ∧ Onward s c point := by
  rw [Receive.pull] at hx
  split at hx
  · subst hx
    cases hp
  · split at hx <;> subst hx <;> cases hp
    exact ⟨_, rfl, .pulls ..⟩

theorem Receive.onward_of_step {now : Nat} {s : Client} {c k : Receive}
    (hp : (c.step now s).progress = .on k) :
    ∃ point, k = { c with point := point } ∧ Onward s c point := by
  cases hc : c.point with
  | arriving =>
    simp only [Receive.step, hc] at hp
    split at hp <;> cases hp
    exact ⟨_, rfl, .surveys _ hc⟩
  | surveying list =>
    simp only [Receive.step, hc] at hp
    split at hp
    · exact Receive.onward_of_pull rfl hp
    · next hnone =>
      cases hp
      refine ⟨_, rfl, .expands list _ hc fun p hm => ?_⟩
      rw [← Client.isIdle_leave_list s c.receiver list]
      exact Bool.eq_false_iff.mpr (List.find?_eq_none.mp hnone p hm)
  | expanding list =>
    simp only [Receive.step, hc] at hp
    split at hp
    · cases hp
    · next ho =>
      cases hp
      exact ⟨_, rfl, .opens list _ hc (Bool.eq_false_iff.mpr ho)⟩
  | opening list connection =>
    simp only [Receive.step, hc] at hp
    cases hp
    exact ⟨_, rfl, .links list connection _ hc⟩
  | linking list connection problem =>
    simp only [Receive.step, hc] at hp
    split at hp
    · cases hp
    · exact Receive.onward_of_pull rfl hp
  | pulling position ticket link deadline =>
    simp only [Receive.step, hc] at hp
    cases hp

/-- Nobody sets about opening a link for a receiver that is closed. -/
theorem Receive.isOpening_step {now : Nat} {s : Client} {c k : Receive}
    (hp : (c.step now s).progress = .on k) (hk : k.point.isOpening = true) :
    k.receiver = c.receiver ∧
      (c.point.isOpening = true ∨ (s.receiver c.receiver).closed = false) := by
  obtain ⟨point, rfl, ho⟩ := Receive.onward_of_step hp
  refine ⟨rfl, ?_⟩
  cases ho with
  | opens list connection hc ho => exact .inr ho
  | links list connection problem hc =>
    rw [hc]
    exact .inl rfl
  | _ => contradiction

/-! ## Closing -/

/-- Closing a receiver that is closed does nothing. -/
theorem Close.step_of_closed {s : Client} {c : Close} (hc : c.point = .marking)
    (hr : (s.receiver c.receiver).closed = true) :
    c.step s = { state := s, progress := .done (.ok ()) } := by
  simp only [Close.step, hc, hr, if_true]

/-- How a close goes on when these lanes are left: it ends with that result, or turns to the
first of them. -/
inductive Close.Goes (c : Close) (result : Except BusError Unit) :
    List Nat → Progress Close (Except BusError Unit) → Prop where
  | ends : Goes c result [] (.done result)
  | enters (position ticket : Nat) (rest : List Nat) (tally : Close.Tally)
    (ht : tally.result = result) :
    Goes c result (position :: rest) (.on { c with point := .entering position ticket rest tally })

/-- What a step of a close does. -/
inductive Close.Turns (s : Client) (c : Close) :
    List LaneSet → Progress Close (Except BusError Unit) → Prop where
  | returns (hc : c.point = .marking) (hr : (s.receiver c.receiver).closed = true) :
    Turns s c s.receivers (.done (.ok ()))
  | marks (hc : c.point = .marking) (hr : (s.receiver c.receiver).closed = false) (ticket : Nat) :
    Turns s c (s.marked c.receiver).receivers (.on { c with point := .taking ticket })
  | unlists (list : Nat) (hc : c.point = .taking list)
    (p : Progress Close (Except BusError Unit))
    (hp : c.Goes (.ok ()) (s.receiver c.receiver).listed p) :
    Turns s c (s.unlisted c.receiver).receivers p
  | disposes (position ticket link : Nat) (rest : List Nat) (tally tally' : Close.Tally)
    (hc : c.point = .entering position ticket rest tally)
    (hl : (s.lane c.receiver position).link = some link) (ht : tally'.result = tally.result) :
    Turns s c (s.emptied c.receiver position).receivers
      (.on { c with
        point := .disposing position ticket (s.ask (.disposeLink link)).1 rest tally' })
  | passes (position ticket : Nat) (rest : List Nat) (tally : Close.Tally)
    (hc : c.point = .entering position ticket rest tally)
    (hl : (s.lane c.receiver position).link = none)
    (p : Progress Close (Except BusError Unit)) (hp : c.Goes tally.result rest p) :
    Turns s c (s.emptied c.receiver position).receivers p
  | goesOn (position ticket : Nat) (problem : Option String) (rest : List Nat)
    (tally : Close.Tally) (hc : c.point = .disposing position ticket problem rest tally)
    (p : Progress Close (Except BusError Unit))
    (hp : c.Goes (Close.firstFailure tally.result problem) rest p) :
    Turns s c s.receivers p

/-- Other receivers stay as they are. -/
theorem Close.Turns.alike {s t : Client} {c : Close} {sets : List LaneSet}
    {p : Progress Close (Except BusError Unit)} (h : c.Turns s sets p) (ht : t.receivers = sets)
    {r : Nat} (hr : r ≠ c.receiver) : (s.receiver r).Alike (t.receiver r) := by
  have hother {set : LaneSet} (hs : t.receivers = (s.setReceiver c.receiver set).receivers) :
      (s.receiver r).Alike (t.receiver r) := by
    rw [Client.receiver_congr hs, Client.receiver_setReceiver_ne hr]
    exact .refl _
  cases h with
  | returns | goesOn => exact Client.Alike.of_receivers ht r
  | _ => exact hother ht

theorem Close.goes_goOn (s : Client) (c : Close) (tally : Close.Tally) (lanes : List Nat) :
    c.Goes tally.result lanes (c.goOn s tally lanes).progress := by
  cases lanes with
  | nil => exact .ends
  | cons position rest => exact .enters position _ rest tally rfl

theorem Close.receivers_goOn (s : Client) (c : Close) (tally : Close.Tally) (lanes : List Nat) :
    (c.goOn s tally lanes).state.receivers = s.receivers := by
  cases lanes <;> rfl

theorem Close.turns (s : Client) (c : Close) :
    c.Turns s (c.step s).state.receivers (c.step s).progress := by
  cases hc : c.point with
  | marking =>
    simp only [Close.step, hc]
    split
    · next hr => exact .returns hc hr
    · next hr => exact .marks hc (Bool.eq_false_iff.mpr hr) _
  | taking list =>
    simp only [Close.step, hc]
    rw [Close.receivers_goOn]
    exact .unlists list hc _
      (Close.goes_goOn _ c { lanes := (s.receiver c.receiver).listed.length } _)
  | entering position ticket rest tally =>
    simp only [Close.step, hc]
    cases hl : (s.lane c.receiver position).link with
    | none =>
      dsimp only
      rw [Close.receivers_goOn]
      exact .passes position ticket rest tally hc hl _ (Close.goes_goOn _ c
        { tally with
          unsettled := tally.unsettled + (s.lane c.receiver position).inFlight.length } _)
    | some link => exact .disposes position ticket link rest tally _ hc hl rfl
  | disposing position ticket problem rest tally =>
    simp only [Close.step, hc]
    rw [Close.receivers_goOn]
    exact .goesOn position ticket problem rest tally hc _ (Close.goes_goOn _ c
      { tally with result := Close.firstFailure tally.result problem } _)

/-! ## The other side -/

/-- The link that a request disposes. -/
def Request.disposed? : Request → Option Nat
  | .disposeLink link => some link
  | _ => none

/-- The links that the other side was asked to dispose. -/
def Client.disposed (s : Client) : List Nat := s.network.requests.filterMap Request.disposed?

/-- What a step opens and disposes, as the other side sees it. -/
structure Client.Registers (s t : Client) (opened : List Opening) (disposed : List Disposal) :
    Prop where
  links : t.network.links.length = s.network.links.length + opened.length
  disposed : t.disposed = s.disposed ++ disposed.map (·.link)

namespace Client

variable {s t u : Client}

/-- Nothing is opened and nothing is disposed. -/
abbrev Spares (s t : Client) : Prop := s.Registers t [] []

theorem Spares.of_requests (hl : t.network.links = s.network.links)
    (hr : t.network.requests = s.network.requests) : s.Spares t :=
  ⟨by rw [hl]; rfl, by rw [disposed, hr]; exact (List.append_nil _).symm⟩

theorem Spares.of_network (h : t.network = s.network) : s.Spares t :=
  .of_requests (by rw [h]) (by rw [h])

theorem Spares.trans {opened : List Opening} {ds : List Disposal} (h : s.Spares t)
    (k : t.Registers u opened ds) : s.Registers u opened ds :=
  ⟨by rw [k.links, h.links]; rfl, by rw [k.disposed, h.disposed, List.map_nil, List.append_nil]⟩

theorem Registers.spares {opened : List Opening} {ds : List Disposal} (h : s.Registers t opened ds)
    (k : t.Spares u) : s.Registers u opened ds :=
  ⟨by rw [k.links, h.links]; rfl, by rw [k.disposed, h.disposed, List.map_nil, List.append_nil]⟩

theorem links_ask (s : Client) (request : Request) :
    (s.ask request).2.network.links = s.network.links := by
  change (s.network.ask request).2.links = _
  rw [Network.ask]
  split <;> rfl

theorem Spares.ask {request : Request} {problem : Option String} (hr : request.disposed? = none)
    (ha : s.ask request = (problem, t)) : s.Spares t := by
  have ht : (s.ask request).2 = t := congrArg Prod.snd ha
  subst ht
  refine ⟨congrArg List.length (links_ask s request), ?_⟩
  rw [disposed, requests_ask, List.filterMap_append, List.filterMap_cons_none hr]
  rfl

/-- The request to dispose a link is seen by the other side. -/
theorem registers_dispose (s : Client) (d : Disposal) :
    s.Registers (s.ask (.disposeLink d.link)).2 [] [d] := by
  refine ⟨congrArg List.length (links_ask s _), ?_⟩
  rw [disposed, requests_ask, List.filterMap_append]
  rfl

theorem registers_linked (s : Client) (entity : EntityPath) (r : Nat) :
    s.Registers (linked s entity none).2 [⟨r, s.network.links.length⟩] [] :=
  ⟨List.length_append, (List.append_nil _).symm⟩

end Client

open Client

theorem Send.spares (s : Client) (c : Send) : s.Spares (c.step s).state := by
  cases c with
  | buildingOne target body options =>
    simp only [Send.step]
    split <;> exact Spares.of_network rfl
  | buildingBatch target bodies options =>
    simp only [Send.step]
    split <;> exact Spares.of_network rfl
  | creating target messages receipt ticket =>
    simp only [Send.step]
    split
    · next ha => exact (Spares.ask rfl ha).trans (Spares.of_network rfl)
    · next ha => exact (Spares.ask rfl ha).trans (Spares.of_network rfl)
  | sending target messages receipt =>
    have hrequest : (Send.request target messages).disposed? = none := by
      rw [Send.request]
      split <;> rfl
    simp only [Send.step]
    split
    · next ha => exact Spares.ask hrequest ha
    · next ha => exact (Spares.ask hrequest ha).trans (Spares.of_requests rfl rfl)
  | disposing target result =>
    have hrequest : (Request.disposeSender target).disposed? = none := rfl
    exact Spares.ask (s := s) hrequest rfl

theorem Open.registers (s : Client) (c : Open) :
    s.Registers (c.step s).state ((Call.opening c).opening? s).toList [] := by
  cases c with
  | checking entity =>
    simp only [Open.step]
    split <;> exact Spares.of_network rfl
  | opening path ticket =>
    have hrequest : (Request.openLink path).disposed? = none := rfl
    exact Spares.ask (s := s) hrequest rfl
  | linking path ticket problem =>
    cases problem with
    | some problem => exact Spares.of_network rfl
    | none => exact (registers_linked s path _).spares (Spares.of_network rfl)

theorem Receive.spares_pull {now : Nat} {s : Client} {c : Receive} {logs : List LogRecord}
    {position ticket : Nat} {x : Step Client Receive Receive.Result}
    (hx : c.pull now s logs position ticket = x) : s.Spares x.state := by
  rw [Receive.pull] at hx
  split at hx
  · subst hx
    exact Spares.of_network rfl
  · split at hx <;> subst hx
    · next ha => exact (Spares.ask rfl ha).trans (Spares.of_network rfl)
    · next ha => exact Spares.ask rfl ha

theorem Receive.spares_drop (s : Client) (c : Receive) : s.Spares (c.drop s) := by
  rw [Receive.drop]
  cases c.point <;> exact Spares.of_network rfl

theorem Receive.registers (now : Nat) (s : Client) (c : Receive) :
    s.Registers (c.step now s).state ((Call.receiving c).opening? s).toList [] := by
  cases hc : c.point with
  | arriving =>
    simp only [Receive.step, Call.opening?, hc]
    split <;> exact Spares.of_network rfl
  | surveying list =>
    simp only [Receive.step, Call.opening?, hc]
    split
    · next position _ =>
      have hdrawn : s.Spares
          ((s.leave (.list c.receiver) list).draw (.lane c.receiver position) .sole).2 :=
        Spares.of_network rfl
      exact hdrawn.trans (Receive.spares_pull rfl)
    · exact Spares.of_network rfl
  | expanding list =>
    simp only [Receive.step, Call.opening?, hc]
    split <;> exact Spares.of_network rfl
  | opening list connection =>
    have hrequest : (Request.openLink (s.receiver c.receiver).entity).disposed? = none := rfl
    simp only [Receive.step, Call.opening?, hc]
    exact Spares.ask (s := s) hrequest rfl
  | linking list connection problem =>
    have hlinked := registers_linked s (s.receiver c.receiver).entity c.receiver
    cases problem with
    | some problem =>
      simp only [Receive.step, Call.opening?, hc, linked]
      exact Spares.of_network rfl
    | none =>
      simp only [Receive.step, Call.opening?, hc]
      split
      · next ho => cases ho
      · next link t ho =>
        rw [ho] at hlinked
        generalize hx : c.pull now _ _ _ _ = x
        refine hlinked.spares (Spares.trans ?_ (Receive.spares_pull hx))
        exact Spares.of_network rfl
  | pulling position ticket link deadline =>
    simp only [Receive.step, Call.opening?, hc]
    exact Spares.of_requests rfl rfl

theorem Settle.spares (s : Client) (c : Settle) : s.Spares (c.step s).state := by
  have hnetwork := (c.network_step s 0).2.2
  cases ha : (Call.settling c).asking? s 0 with
  | none =>
    rw [ha] at hnetwork
    exact Spares.of_network hnetwork
  | some a =>
    rw [ha] at hnetwork
    have hrequest : a.request.disposed? = none := by
      rw [Asking.request]
      cases a.verdict <;> rfl
    exact (Spares.ask (s := s) hrequest rfl).trans (Spares.of_network hnetwork)

theorem Close.network_goOn (s : Client) (c : Close) (tally : Close.Tally) (rest : List Nat) :
    (c.goOn s tally rest).state.network = s.network := by
  cases rest <;> rfl

/-- **A close asks the other side** to dispose links, and for nothing else. -/
theorem Close.network_step (s : Client) (c : Close) (i : Nat) :
    (c.step s).state.network = ((Call.closing c).disposal? s i).elim s.network
      fun d => (s.network.ask (.disposeLink d.link)).2 := by
  cases hc : c.point with
  | marking =>
    simp only [Close.step, Call.disposal?, hc]
    split <;> rfl
  | taking list =>
    simp only [Close.step, Call.disposal?, hc]
    exact Close.network_goOn ..
  | entering position ticket rest tally =>
    simp only [Close.step, Call.disposal?, hc]
    cases (s.lane c.receiver position).link with
    | none => exact Close.network_goOn ..
    | some link => rfl
  | disposing position ticket problem rest tally =>
    simp only [Close.step, Call.disposal?, hc]
    exact Close.network_goOn ..

theorem Close.registers (s : Client) (c : Close) (i : Nat) :
    s.Registers (c.step s).state [] ((Call.closing c).disposal? s i).toList := by
  have hnetwork := c.network_step s i
  cases hd : (Call.closing c).disposal? s i with
  | none =>
    rw [hd] at hnetwork
    exact Spares.of_network hnetwork
  | some d =>
    rw [hd] at hnetwork
    exact (registers_dispose s d).spares (Spares.of_network hnetwork)

/-- **What a step opens and disposes**, the other side sees. -/
theorem Call.registers (now : Nat) (s : Client) (c : Call) (i : Nat) :
    s.Registers (c.step now s).state (c.opening? s).toList (c.disposal? s i).toList := by
  cases c with
  | sending c => exact Send.spares s c
  | opening c => exact Open.registers s c
  | receiving c => exact Receive.registers now s c
  | settling c => exact Settle.spares s c
  | closing c => exact Close.registers s c i

end PeekLock.Remote
