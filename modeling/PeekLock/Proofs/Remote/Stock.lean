import PeekLock.Proofs.Remote.Soundness

/-!
# PeekLock.Proofs.Remote.Stock

The messages that lie with the lanes of a receiver.

The stock of a receiver are the messages of its lanes that are not settled
yet, each as it was handed out.  A step moves messages: what is handed out
comes into stock, what a link is asked to settle goes out of stock, and
only a close lets go of the rest (`Deed.stock`).
-/

namespace PeekLock.Remote

/-! ## The stock of a lane -/

/-- The unsettled messages of a lane, as they were handed out. -/
def Lane.stock (r : Nat) (l : Lane) : List Handout :=
  match l.link with
  | some link => l.inFlight.map fun x => ⟨r, link, x.1, x.2⟩
  | none => []

theorem Lane.stock_of_link {l : Lane} {link : Nat} (h : l.link = some link) (r : Nat) :
    l.stock r = l.inFlight.map fun x => ⟨r, link, x.1, x.2⟩ := by
  rw [Lane.stock, h]

theorem Lane.mem_of_message? {l : Lane} {token : LockToken} {m : Incoming}
    (h : l.message? token = some m) : (token, m) ∈ l.inFlight := by
  obtain ⟨x, hx, rfl⟩ := Option.map_eq_some_iff.mp h
  have htoken : x.1 = token := by simpa using List.find?_some hx
  exact htoken ▸ List.mem_of_find?_eq_some hx

/-- Taking a message out of a lane takes it out of stock. -/
theorem Lane.stock_without {l : Lane} {link : Nat} {token : LockToken} {m : Incoming}
    (hl : l.link = some link) (hm : l.message? token = some m) {r : Nat}
    (hd : ((l.stock r).map (·.token)).Nodup) :
    (l.stock r).Perm (⟨r, link, token, m⟩ ::
      Lane.stock r { l with inFlight := l.inFlight.filter (·.1 ≠ token) }) := by
  have hrest : Lane.stock r { l with inFlight := l.inFlight.filter (·.1 ≠ token) } =
      (l.inFlight.filter (·.1 ≠ token)).map fun x => ⟨r, link, x.1, x.2⟩ := by
    rw [Lane.stock, hl]
  rw [hrest, Lane.stock_of_link hl]
  rw [Lane.stock_of_link hl, List.map_map] at hd
  exact (perm_cons_filter_ne (f := Prod.fst) hd (Lane.mem_of_message? hm)).map
    fun x => (⟨r, link, x.1, x.2⟩ : Handout)

/-! ## The stock of a receiver -/

namespace Client

variable {s t : Client} {r p : Nat}

/-- The unsettled messages of a receiver, as they were handed out. -/
def stock (s : Client) (r : Nat) : List Handout := (s.receiver r).lanes.flatMap (Lane.stock r)

theorem stock_congr (h : t.receivers = s.receivers) (r : Nat) : t.stock r = s.stock r := by
  rw [stock, stock, receiver_congr h]

/-- A receiver that keeps its lanes keeps its stock. -/
theorem stock_setReceiver (set : LaneSet) (h : set.lanes = (s.receiver r).lanes) (r' : Nat) :
    (s.setReceiver r set).stock r' = s.stock r' := by
  obtain he | ⟨rfl, -, he⟩ := receiver_setReceiver s r r' set
  · rw [stock, he]
    rfl
  · rw [stock, he, h]
    rfl

theorem stock_marked (s : Client) (r r' : Nat) : (s.marked r).stock r' = s.stock r' :=
  stock_setReceiver { s.receiver r with closed := true } rfl r'

theorem stock_unlisted (s : Client) (r r' : Nat) : (s.unlisted r).stock r' = s.stock r' :=
  stock_setReceiver { s.receiver r with listed := [] } rfl r'

theorem stock_setLane_ne {r' : Nat} (h : r' ≠ r) (l : Lane) :
    (s.setLane r p l).stock r' = s.stock r' := by
  rw [stock, setLane, receiver_setReceiver_ne h]
  rfl

/-- Changing a lane exchanges its stock. -/
theorem stock_setLane (hr : r < s.receivers.length) (hp : p < (s.receiver r).lanes.length)
    (l : Lane) : ((s.setLane r p l).stock r ++ (s.lane r p).stock r).Perm
      (s.stock r ++ l.stock r) := by
  rw [stock, setLane, receiver_setReceiver_self hr]
  exact perm_flatMap_set (Lane.stock r) (getElem?_lane hp) l

/-- The stock of a lane is part of that of its receiver. -/
theorem sublist_stock (hp : p < (s.receiver r).lanes.length) :
    ((s.lane r p).stock r).Sublist (s.stock r) :=
  List.sublist_flatten_of_mem (List.mem_map_of_mem (mem_lanes hp))

/-- What a lane hands out comes into stock. -/
theorem stock_withMore (hr : r < s.receivers.length) (hp : p < (s.receiver r).lanes.length)
    {link : Nat} (hl : (s.lane r p).link = some link) (tokened : List (LockToken × Incoming)) :
    ((s.withMore r p tokened).stock r).Perm
      (s.stock r ++ tokened.map fun x => ⟨r, link, x.1, x.2⟩) := by
  have hset := stock_setLane hr hp
    { s.lane r p with inFlight := (s.lane r p).inFlight ++ tokened }
  have hnew : Lane.stock r { s.lane r p with inFlight := (s.lane r p).inFlight ++ tokened } =
      (s.lane r p).stock r ++ tokened.map fun x => ⟨r, link, x.1, x.2⟩ := by
    rw [Lane.stock_of_link hl, Lane.stock, hl]
    exact List.map_append
  rw [hnew, ← List.append_assoc] at hset
  refine (List.perm_append_right_iff ((s.lane r p).stock r)).mp (hset.trans ?_)
  rw [List.append_assoc, List.append_assoc]
  exact List.perm_append_comm.append_left _

/-- What a lane forgets goes out of stock. -/
theorem stock_without (hr : r < s.receivers.length) (hp : p < (s.receiver r).lanes.length)
    {link : Nat} {token : LockToken} {m : Incoming} (hl : (s.lane r p).link = some link)
    (hm : (s.lane r p).message? token = some m) (hd : ((s.stock r).map (·.token)).Nodup) :
    (s.stock r).Perm ((s.without r p token).stock r ++ [⟨r, link, token, m⟩]) := by
  have hset := stock_setLane hr hp
    { s.lane r p with inFlight := (s.lane r p).inFlight.filter (·.1 ≠ token) }
  have hout := Lane.stock_without hl hm (((sublist_stock hp).map _).nodup hd)
  refine (List.perm_append_right_iff
    (Lane.stock r { s.lane r p with inFlight := (s.lane r p).inFlight.filter (·.1 ≠ token) })).mp ?_
  refine hset.symm.trans ((hout.append_left _).trans ?_)
  rw [List.append_assoc]
  exact .refl _

/-- All that a lane has goes out of stock with its link. -/
theorem stock_emptied (hr : r < s.receivers.length) (hp : p < (s.receiver r).lanes.length) :
    (s.stock r).Perm ((s.emptied r p).stock r ++ (s.lane r p).stock r) := by
  have hset := stock_setLane hr hp { s.lane r p with inFlight := [], link := none }
  exact (List.append_nil (s.stock r) ▸ hset).symm

theorem stock_addLane (s : Client) (r link r' : Nat) :
    (s.addLane r link).2.stock r' = s.stock r' := by
  by_cases h : r' = r
  · subst h
    obtain he | ⟨-, -, he⟩ := receiver_setReceiver s r' r' { s.receiver r' with
      lanes := (s.receiver r').lanes ++ [⟨(s.receiver r').listed.length, some link, []⟩]
      listed := (s.receiver r').listed ++ [(s.receiver r').lanes.length] }
    · exact congrArg (·.lanes.flatMap (Lane.stock r')) he
    · rw [stock, addLane, he, List.flatMap_append]
      exact List.append_nil _
  · rw [stock, receiver_addLane_ne h]
    rfl

theorem stock_append (s : Client) (path : EntityPath) (link r : Nat) :
    { s with receivers := s.receivers ++ [LaneSet.fresh path link] }.stock r = s.stock r := by
  by_cases hr : r < s.receivers.length
  · rw [stock, receiver_append _ hr]
    rfl
  · rw [stock, stock, receiver_of_le (Nat.le_of_not_lt hr)]
    by_cases he : r = s.receivers.length
    · rw [he, receiver_append_self]
      rfl
    · rw [receiver_of_le]
      · rw [List.length_append, List.length_singleton]
        omega

end Client

/-! ## What a step moves -/

theorem Call.handouts_eq_nil {s : Client} {c : Receive} (hc : c.point.isPulling = false) :
    (Call.receiving c).handouts s = [] := by
  rw [Call.handouts]
  cases hp : c.point with
  | pulling => rw [hp] at hc; contradiction
  | _ => rfl

theorem Call.handouts_pulling {s : Client} {c : Receive} {position ticket link deadline : Nat}
    (hc : c.point = .pulling position ticket link deadline) :
    (Call.receiving c).handouts s =
      (Client.tokenAll s.supply (s.lane c.receiver position).number s.issued
        (s.network.take link c.most).1).map fun x => ⟨c.receiver, link, x.1, x.2⟩ := by
  rw [Call.handouts]
  simp only [hc]

theorem Call.asking?_of_loses {s : Client} {c : Settle} (hc : c.Loses s) (i : Nat) :
    (Call.settling c).asking? s i = none := by
  rw [Call.asking?]
  cases hc with
  | unnamed hc => simp only [hc]
  | unlisted number list hc => simp only [hc]
  | unknown position ticket hc hn => simp only [hc, hn]

theorem Call.asking?_entering {s : Client} {c : Settle} {position ticket link : Nat} {m : Incoming}
    (hc : c.point = .entering position ticket)
    (hm : (s.lane c.receiver position).message? c.token = some m)
    (hl : (s.lane c.receiver position).link = some link) (i : Nat) :
    (Call.settling c).asking? s i = some ⟨i, c.verdict,
      (s.ask (Settle.request link m c.verdict)).1, ⟨c.receiver, link, c.token, m⟩⟩ := by
  rw [Call.asking?]
  simp only [hc, hm, hl]

/-- A message that a lane knows came on its link. -/
theorem Lane.Sound.link_of_message? {l : Lane} (h : l.Sound) {token : LockToken} {m : Incoming}
    (hm : l.message? token = some m) : l.link ≠ none := by
  intro hl
  have hmem := Lane.mem_of_message? hm
  rw [h.gone hl] at hmem
  contradiction

/-- The messages of one receiver. -/
def ofReceiver (r : Nat) (handouts : List Handout) : List Handout :=
  handouts.filter (·.receiver = r)

theorem ofReceiver_self {r : Nat} {handouts : List Handout} (h : ∀ x ∈ handouts, x.receiver = r) :
    ofReceiver r handouts = handouts :=
  List.filter_eq_self.mpr fun x hx => decide_eq_true (h x hx)

theorem ofReceiver_ne {r : Nat} {handouts : List Handout} (h : ∀ x ∈ handouts, x.receiver ≠ r) :
    ofReceiver r handouts = [] :=
  List.filter_eq_nil_iff.mpr fun x hx => by simpa using h x hx

theorem ofReceiver_singleton (r : Nat) (h : Handout) :
    ofReceiver r [h] = if h.receiver = r then [h] else [] := by
  by_cases hr : h.receiver = r
  · rw [if_pos hr]
    exact ofReceiver_self fun x hx => by rw [List.mem_singleton.mp hx, hr]
  · rw [if_neg hr]
    exact ofReceiver_ne fun x hx => by rw [List.mem_singleton.mp hx]; exact hr

namespace Deed

variable {s t : Client} {c : Call} {sets : List LaneSet} {p : Progress Call Outcome}

/-- **What a step moves**: what it hands out comes into stock, what it asks a link for goes
out of stock, and an open receiver lets go of nothing else. -/
theorem stock (h : Deed s c sets p) (ht : t.receivers = sets) (hs : s.Sound) (hf : c.Fits s)
    (hin : ∀ r q, c.touched? = some (r, q) → q < (s.receiver r).lanes.length)
    (hd : ∀ r, ((s.stock r).map (·.token)).Nodup) (i r : Nat) :
    ∃ gone, (s.stock r ++ ofReceiver r (c.handouts s)).Perm
        (t.stock r ++ ofReceiver r ((c.asking? s i).toList.map (·.subject)) ++ gone) ∧
      ((t.receiver r).closed = false → gone = []) := by
  have hg := h.grows ht
  have hstill (hh : c.handouts s = []) (ha : c.asking? s i = none) (he : t.stock r = s.stock r) :
      ∃ gone, (s.stock r ++ ofReceiver r (c.handouts s)).Perm
          (t.stock r ++ ofReceiver r ((c.asking? s i).toList.map (·.subject)) ++ gone) ∧
        ((t.receiver r).closed = false → gone = []) := by
    refine ⟨[], ?_, fun _ => rfl⟩
    rw [hh, ha, he, List.append_nil]
    exact .refl _
  cases h with
  | creates c path link =>
    have hs : t.receivers =
        { s with receivers := s.receivers ++ [LaneSet.fresh path link] }.receivers := ht
    exact hstill rfl rfl ((Client.stock_congr hs r).trans (Client.stock_append s path link r))
  | turnsBack c hc => exact hstill (Call.handouts_eq_nil hc) rfl (Client.stock_congr ht r)
  | queues c hc => exact hstill (Call.handouts_eq_nil hc) rfl (Client.stock_congr ht r)
  | pulls c hc => exact hstill (Call.handouts_eq_nil hc) rfl (Client.stock_congr ht r)
  | adds c list ticket link problem hc =>
    exact hstill (Call.handouts_eq_nil (hc ▸ rfl)) rfl
      ((Client.stock_congr ht r).trans (Client.stock_addLane s c.receiver link r))
  | handsOut c position ticket link deadline hc tokened hn =>
    obtain ⟨hl, -⟩ := Receive.Fits.pulling hf position ticket link deadline hc
    have hh := Call.handouts_pulling (s := s) hc
    rw [← hn] at hh
    refine ⟨[], ?_, fun _ => rfl⟩
    rw [List.append_nil, hh, Client.stock_congr ht]
    by_cases hr : r = c.receiver
    · subst hr
      rw [ofReceiver_self fun x hx => by obtain ⟨y, -, rfl⟩ := List.mem_map.mp hx; rfl]
      have hp := hin c.receiver position (by simp only [Call.touched?, hc])
      have hmore := Client.stock_withMore (hf.known _ rfl) hp hl tokened
      exact hmore.symm.trans (List.append_nil _ ▸ .refl _)
    · rw [ofReceiver_ne fun x hx => by
        obtain ⟨y, -, rfl⟩ := List.mem_map.mp hx
        exact Ne.symm hr]
      exact (Client.stock_setLane_ne hr _).symm ▸ .refl _
  | loses c hc => exact hstill rfl (Call.asking?_of_loses hc i) (Client.stock_congr ht r)
  | refuses c hc => exact hstill rfl (by simp only [Call.asking?, hc]) (Client.stock_congr ht r)
  | looksUp c number list hc =>
    exact hstill rfl (by simp only [Call.asking?, hc]) (Client.stock_congr ht r)
  | finds c number list position ticket hc =>
    exact hstill rfl (by simp only [Call.asking?, hc]) (Client.stock_congr ht r)
  | asks c position ticket link m hc hm hl problem =>
    refine ⟨[], ?_, fun _ => rfl⟩
    rw [List.append_nil, Call.asking?_entering hc hm hl, Client.stock_congr ht,
      Option.toList_some, List.map_singleton, ofReceiver_singleton]
    by_cases hr : r = c.receiver
    · subst hr
      have hp := hin c.receiver position (by simp only [Call.touched?, hc])
      have hout := Client.stock_without (hf.known _ rfl) hp hl hm (hd c.receiver)
      rw [if_pos rfl]
      exact (List.append_nil _).symm ▸ hout
    · rw [if_neg (Ne.symm hr)]
      exact (Client.stock_setLane_ne hr _).symm ▸ .refl _
  | misses c position ticket m hc hm hl =>
    exact ((hs.lane c.receiver position).link_of_message? hm hl).elim
  | settles c position ticket problem hc =>
    exact hstill rfl (by simp only [Call.asking?, hc]) (Client.stock_congr ht r)
  | marks c =>
    exact hstill rfl rfl ((Client.stock_congr ht r).trans (Client.stock_marked s c.receiver r))
  | unlists c =>
    exact hstill rfl rfl ((Client.stock_congr ht r).trans (Client.stock_unlisted s c.receiver r))
  | disposes c position ticket rest tally hc =>
    by_cases hr : r = c.receiver
    · subst hr
      refine ⟨(s.lane c.receiver position).stock c.receiver, ?_, fun ho => ?_⟩
      · have hp := hin c.receiver position (by simp only [Call.touched?, hc])
        have hall := Client.stock_emptied (hf.known _ rfl) hp
        rw [Client.stock_congr ht]
        exact (List.append_nil _).symm ▸ (List.append_nil _).symm ▸ hall
      · have hclosed := Close.Fits.marked hf fun hm => by rw [hc] at hm; contradiction
        rw [hg.closed _ hclosed] at ho
        contradiction
    · exact hstill rfl rfl ((Client.stock_congr ht r).trans (Client.stock_setLane_ne hr _))
  | _ => exact hstill rfl rfl (Client.stock_congr ht r)

end Deed

end PeekLock.Remote
