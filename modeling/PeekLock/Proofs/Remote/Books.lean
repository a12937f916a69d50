import PeekLock.Proofs.Remote.Stock

/-!
# PeekLock.Proofs.Remote.Books

The books of the remote bus agree with what lies with the lanes.

Every message that was handed out has a token of its own.  It is in stock,
or a link was asked once to settle it, or a close has let go of it; and
the requests that the other side has seen are those of the book.
-/

namespace PeekLock.Remote

/-! ## The supply of identifiers -/

theorem le_messageId {supply : Identifier.Supply} {used used' : Nat} {given : Option String}
    {id : String} (h : messageId supply used given = .ok (id, used')) : used ≤ used' := by
  cases given with
  | none =>
    cases h
    exact Nat.le_succ _
  | some _ =>
    simp only [messageId] at h
    split at h
    · cases h
    · cases h
      exact Nat.le_refl _

theorem Outgoing.le_build {supply : Identifier.Supply} {used used' : Nat} {body : List UInt8}
    {options : SendOptions} {m : Outgoing}
    (h : Outgoing.build supply used body options = .ok (m, used')) : used ≤ used' := by
  simp only [Outgoing.build] at h
  split at h
  · cases h
  · next hid =>
    cases h
    exact le_messageId hid

theorem Outgoing.le_buildFrom {supply : Identifier.Supply} {index used used' : Nat}
    {bodies : List (List UInt8)} {options : SendOptions} {ms : List Outgoing}
    (h : Outgoing.buildFrom supply index used bodies options = .ok (ms, used')) : used ≤ used' := by
  induction bodies generalizing index used ms with
  | nil =>
    cases h
    exact Nat.le_refl _
  | cons body rest ih =>
    rw [Outgoing.buildFrom] at h
    split at h
    · cases h
    · next m used₁ hm =>
      split at h
      · cases h
      · next ms used₂ hms =>
        cases h
        exact Nat.le_trans (Outgoing.le_build hm) (ih hms)

/-! ## What the other side sees -/

/-- Whether a request settles a message. -/
def Request.isSettlement : Request → Bool
  | .complete .. => true
  | .abandon .. => true
  | _ => false

/-- The settlements that the other side was asked for. -/
def Client.settlements (s : Client) : List Request := s.network.requests.filter (·.isSettlement)

/-- A client after a step that draws no identifier and asks for no settlement. -/
def Client.SameBooks (s t : Client) : Prop :=
  t.supply = s.supply ∧ t.issued = s.issued ∧ t.settlements = s.settlements

namespace Client

variable {s t u : Client}

theorem SameBooks.refl (s : Client) : s.SameBooks s := ⟨rfl, rfl, rfl⟩

theorem requests_ask (s : Client) (request : Request) :
    (s.ask request).2.network.requests = s.network.requests ++ [request] := by
  change (s.network.ask request).2.requests = _
  rw [Network.ask]
  split <;> rfl

theorem sameBooks_ask {request : Request} {problem : Option String}
    (hr : request.isSettlement = false) (ha : s.ask request = (problem, t)) : s.SameBooks t := by
  have ht : (s.ask request).2 = t := congrArg Prod.snd ha
  subst ht
  refine ⟨rfl, rfl, ?_⟩
  rw [settlements, requests_ask, List.filter_append, List.filter_cons_of_neg (by rw [hr]; decide)]
  exact List.append_nil _

theorem sameBooks_linked {entity : EntityPath} {problem : Option String}
    {result : Except BusError Nat} (ho : linked s entity problem = (result, t)) :
    s.SameBooks t := by
  cases problem <;> cases ho <;> exact ⟨rfl, rfl, rfl⟩

/-- The request for a settlement is seen by the other side. -/
theorem settlements_ask (s : Client) (link : Nat) (m : Incoming) (v : Verdict) :
    (s.ask (Settle.request link m v)).2.settlements =
      s.settlements ++ [Settle.request link m v] := by
  rw [settlements, requests_ask, List.filter_append, List.filter_cons_of_pos (by cases v <;> rfl)]
  rfl

theorem SameBooks.trans (h : s.SameBooks t) (k : t.SameBooks u) : s.SameBooks u :=
  ⟨k.1.trans h.1, k.2.1.trans h.2.1, k.2.2.trans h.2.2⟩

end Client

/-- What a step adds to the books. -/
structure Client.Adds (s t : Client) (handouts : List Handout) (askings : List Asking) : Prop where
  supply : t.supply = s.supply
  issued : s.issued + handouts.length ≤ t.issued
  settlements : t.settlements = s.settlements ++ askings.map (·.request)

theorem Client.SameBooks.adds {s t : Client} (h : s.SameBooks t) : s.Adds t [] [] :=
  ⟨h.1, Nat.le_of_eq h.2.1.symm, h.2.2.trans (List.append_nil _).symm⟩

theorem Send.adds (s : Client) (c : Send) : s.Adds (c.step s).state [] [] := by
  cases c with
  | buildingOne target body options =>
    simp only [Send.step]
    split
    · exact (Client.SameBooks.refl s).adds
    · next hm => exact ⟨rfl, Outgoing.le_build hm, (List.append_nil _).symm⟩
  | buildingBatch target bodies options =>
    simp only [Send.step]
    split
    · exact (Client.SameBooks.refl s).adds
    · next hm => exact ⟨rfl, Outgoing.le_buildFrom hm, (List.append_nil _).symm⟩
    · next hm => exact ⟨rfl, Outgoing.le_buildFrom hm, (List.append_nil _).symm⟩
  | creating target messages receipt ticket =>
    simp only [Send.step]
    split
    · next ha => exact Client.SameBooks.adds (Client.sameBooks_ask rfl ha :)
    · next ha => exact Client.SameBooks.adds (Client.sameBooks_ask rfl ha :)
  | sending target messages receipt =>
    have hrequest : (Send.request target messages).isSettlement = false := by
      rw [Send.request]
      split <;> rfl
    simp only [Send.step]
    split
    · next ha => exact Client.SameBooks.adds (Client.sameBooks_ask hrequest ha :)
    · next ha => exact Client.SameBooks.adds (Client.sameBooks_ask hrequest ha :)
  | disposing target result => exact (Client.sameBooks_ask (s := s) rfl rfl).adds

theorem Open.adds (s : Client) (c : Open) : s.Adds (c.step s).state [] [] := by
  cases c with
  | checking entity =>
    simp only [Open.step]
    split <;> exact Client.SameBooks.adds ⟨rfl, rfl, rfl⟩
  | opening path ticket =>
    have hrequest : (Request.openLink path).isSettlement = false := rfl
    exact (Client.sameBooks_ask (s := s) hrequest rfl).adds
  | linking path ticket problem =>
    simp only [Open.step]
    split
    · next ho => exact Client.SameBooks.adds (Client.sameBooks_linked ho :)
    · next ho => exact Client.SameBooks.adds (Client.sameBooks_linked ho :)

theorem Receive.sameBooks_pull (now : Nat) (s : Client) (c : Receive) (logs : List LogRecord)
    (position ticket : Nat) : s.SameBooks (c.pull now s logs position ticket).state := by
  rw [Receive.pull]
  split
  · exact ⟨rfl, rfl, rfl⟩
  · split
    · next ha => exact (Client.sameBooks_ask rfl ha :)
    · next ha => exact (Client.sameBooks_ask rfl ha :)

theorem Receive.sameBooks_drop (s : Client) (c : Receive) : s.SameBooks (c.drop s) := by
  rw [Receive.drop]
  cases c.point <;> exact ⟨rfl, rfl, rfl⟩

theorem Client.length_tokenAll (supply : Identifier.Supply) (number issued : Nat)
    (messages : List Incoming) :
    (Client.tokenAll supply number issued messages).length = messages.length := by
  induction messages generalizing issued with
  | nil => rfl
  | cons m rest ih => rw [Client.tokenAll, List.length_cons, List.length_cons, ih]

theorem Receive.adds (now : Nat) (s : Client) (c : Receive) :
    s.Adds (c.step now s).state ((Call.receiving c).handouts s) [] := by
  have hquiet (hp : c.point.isPulling = false) (h : s.SameBooks (c.step now s).state) :
      s.Adds (c.step now s).state ((Call.receiving c).handouts s) [] := by
    rw [Call.handouts_eq_nil hp]
    exact h.adds
  cases hc : c.point with
  | pulling position ticket link deadline =>
    simp only [Receive.step, hc]
    rw [Call.handouts_pulling hc]
    refine ⟨rfl, ?_, (List.append_nil _).symm⟩
    rw [List.length_map, Client.length_tokenAll]
    exact Nat.le_refl _
  | arriving =>
    refine hquiet (hc ▸ rfl) ?_
    simp only [Receive.step, hc]
    split <;> exact ⟨rfl, rfl, rfl⟩
  | surveying list =>
    refine hquiet (hc ▸ rfl) ?_
    simp only [Receive.step, hc]
    split
    · next position _ =>
      have hdrawn : s.SameBooks
          ((s.leave (.list c.receiver) list).draw (.lane c.receiver position) .sole).2 :=
        ⟨rfl, rfl, rfl⟩
      exact hdrawn.trans (Receive.sameBooks_pull ..)
    · exact ⟨rfl, rfl, rfl⟩
  | expanding list =>
    refine hquiet (hc ▸ rfl) ?_
    simp only [Receive.step, hc]
    split <;> exact ⟨rfl, rfl, rfl⟩
  | opening list connection =>
    refine hquiet (hc ▸ rfl) ?_
    have hrequest :
        (Request.openLink (s.receiver c.receiver).entity).isSettlement = false := rfl
    simp only [Receive.step, hc]
    exact Client.sameBooks_ask (s := s) hrequest rfl
  | linking list connection problem =>
    refine hquiet (hc ▸ rfl) ?_
    simp only [Receive.step, hc]
    split
    · next ho => exact (Client.sameBooks_linked ho :)
    · next ho =>
      exact Client.SameBooks.trans (Client.sameBooks_linked ho :) (Receive.sameBooks_pull ..)

/-- **A settlement asks the other side** for what the book says, and for nothing else. -/
theorem Settle.network_step (s : Client) (c : Settle) (i : Nat) :
    (c.step s).state.supply = s.supply ∧ (c.step s).state.issued = s.issued ∧
      (c.step s).state.network = ((Call.settling c).asking? s i).elim s.network
        fun a => (s.network.ask a.request).2 := by
  cases hc : c.point with
  | arriving =>
    simp only [Settle.step, Call.asking?, hc]
    split
    · exact ⟨rfl, rfl, rfl⟩
    · split <;> exact ⟨rfl, rfl, rfl⟩
  | finding number list =>
    simp only [Settle.step, Call.asking?, hc]
    split <;> exact ⟨rfl, rfl, rfl⟩
  | entering position ticket =>
    simp only [Settle.step, Call.asking?, hc]
    cases (s.lane c.receiver position).message? c.token with
    | none => exact ⟨rfl, rfl, rfl⟩
    | some m => cases (s.lane c.receiver position).link <;> exact ⟨rfl, rfl, rfl⟩
  | asking position ticket problem =>
    simp only [Settle.step, Call.asking?, hc]
    exact ⟨rfl, rfl, rfl⟩

theorem Settle.adds (s : Client) (c : Settle) (i : Nat) :
    s.Adds (c.step s).state [] ((Call.settling c).asking? s i).toList := by
  obtain ⟨hsupply, hissued, hnetwork⟩ := c.network_step s i
  refine ⟨hsupply, Nat.le_of_eq hissued.symm, ?_⟩
  rw [Client.settlements, hnetwork]
  cases (Call.settling c).asking? s i with
  | none => exact (List.append_nil _).symm
  | some a => exact Client.settlements_ask s a.subject.link a.subject.message a.verdict

theorem Close.sameBooks_goOn (s : Client) (c : Close) (tally : Close.Tally) (rest : List Nat) :
    s.SameBooks (c.goOn s tally rest).state := by
  cases rest <;> exact ⟨rfl, rfl, rfl⟩

theorem Close.sameBooks_step (s : Client) (c : Close) : s.SameBooks (c.step s).state := by
  cases hc : c.point with
  | marking =>
    simp only [Close.step, hc]
    split <;> exact ⟨rfl, rfl, rfl⟩
  | taking list =>
    simp only [Close.step, hc]
    exact Client.SameBooks.trans ⟨rfl, rfl, rfl⟩ (Close.sameBooks_goOn ..)
  | entering position ticket rest tally =>
    simp only [Close.step, hc]
    split
    · exact Client.SameBooks.trans ⟨rfl, rfl, rfl⟩ (Close.sameBooks_goOn ..)
    · next link _ =>
      have hrequest : (Request.disposeLink link).isSettlement = false := rfl
      exact Client.sameBooks_ask (s := s.emptied c.receiver position) hrequest rfl
  | disposing position ticket problem rest tally =>
    simp only [Close.step, hc]
    exact Client.SameBooks.trans ⟨rfl, rfl, rfl⟩ (Close.sameBooks_goOn ..)

/-- **What a step adds** to the books. -/
theorem Call.adds (now : Nat) (s : Client) (c : Call) (i : Nat) :
    s.Adds (c.step now s).state (c.handouts s) (c.asking? s i).toList := by
  cases c with
  | sending c => exact Send.adds s c
  | opening c => exact Open.adds s c
  | receiving c => exact Receive.adds now s c
  | settling c => exact Settle.adds s c i
  | closing c => exact (Close.sameBooks_step s c).adds

/-! ## Tokens -/

/-- The tokens that a step hands out are new. -/
theorem Call.mem_handouts {s : Client} {c : Call} {h : Handout} (hh : h ∈ c.handouts s) :
    ∃ number used, h.token = lockToken s.supply number used ∧ s.issued ≤ used ∧
      used < s.issued + (c.handouts s).length := by
  cases c with
  | receiving c =>
    cases hc : c.point with
    | pulling position ticket link deadline =>
      rw [Call.handouts_pulling hc] at hh ⊢
      obtain ⟨x, hx, rfl⟩ := List.mem_map.mp hh
      obtain ⟨used, hle, hlt, he⟩ := Client.mem_tokenAll hx
      rw [List.length_map, Client.length_tokenAll]
      exact ⟨_, used, he, hle, hlt⟩
    | _ =>
      rw [Call.handouts_eq_nil (hc ▸ rfl)] at hh
      contradiction
  | _ => contradiction

theorem Client.nodup_tokenAll (supply : Identifier.Supply) (number issued : Nat)
    (messages : List Incoming) :
    ((Client.tokenAll supply number issued messages).map (·.1)).Nodup := by
  induction messages generalizing issued with
  | nil => exact List.nodup_nil
  | cons m rest ih =>
    rw [Client.tokenAll, List.map_cons, List.nodup_cons]
    refine ⟨fun hm => ?_, ih (issued + 1)⟩
    obtain ⟨x, hx, he⟩ := List.mem_map.mp hm
    obtain ⟨used, hle, -, hn⟩ := Client.mem_tokenAll hx
    have := lockToken_inj (hn.symm.trans he)
    omega

/-- No two of them are the same. -/
theorem Call.nodup_handouts (s : Client) (c : Call) : ((c.handouts s).map (·.token)).Nodup := by
  cases c with
  | receiving c =>
    cases hc : c.point with
    | pulling position ticket link deadline =>
      rw [Call.handouts_pulling hc, List.map_map]
      exact Client.nodup_tokenAll _ _ _ _
    | _ =>
      rw [Call.handouts_eq_nil (hc ▸ rfl)]
      exact List.nodup_nil
  | _ => exact List.nodup_nil

/-! ## The balance -/

theorem ofReceiver_append (r : Nat) (xs ys : List Handout) :
    ofReceiver r (xs ++ ys) = ofReceiver r xs ++ ofReceiver r ys :=
  List.filter_append ..

/-- The messages that links were asked to settle. -/
def Traffic.asked (s : Traffic) : List Handout := s.askings.map (·.subject)

/-- The books agree with what lies with the lanes. -/
structure Traffic.Balanced (s : Traffic) : Prop where
  /-- Every token was drawn. -/
  drawn : ∀ h ∈ s.handouts, ∃ number used,
    h.token = lockToken s.client.supply number used ∧ used < s.client.issued
  distinct : (s.handouts.map (·.token)).Nodup
  /-- A message that was handed out is in stock, or a link was asked to settle it, or a
  close has let go of it. -/
  balance : ∀ r, ∃ lost, (ofReceiver r s.handouts).Perm
    (s.client.stock r ++ ofReceiver r s.asked ++ lost) ∧
      ((s.client.receiver r).closed = false → lost = [])
  /-- What the other side was asked for is what the book says. -/
  requests : s.client.settlements = s.askings.map (·.request)

namespace Traffic

variable {s t : Traffic}

theorem balanced_start (supply : Identifier.Supply) (print : Amqp.Value → String) :
    (start supply print).Balanced where
  drawn := nofun
  distinct := List.nodup_nil
  balance _ := ⟨[], .refl _, fun _ => rfl⟩
  requests := rfl

namespace Balanced

/-- Tokens of messages of one receiver differ, in stock and out of it. -/
theorem nodup_receiver (h : s.Balanced) (r : Nat) :
    ((s.client.stock r ++ ofReceiver r s.asked).map (·.token)).Nodup := by
  obtain ⟨lost, hp, -⟩ := h.balance r
  have hall : ((ofReceiver r s.handouts).map (·.token)).Nodup :=
    (List.filter_sublist.map _).nodup h.distinct
  exact ((List.sublist_append_left _ lost).map _).nodup ((hp.map _).nodup_iff.mp hall)

theorem nodup_stock (h : s.Balanced) (r : Nat) :
    ((s.client.stock r).map (·.token)).Nodup :=
  ((List.sublist_append_left _ _).map _).nodup (h.nodup_receiver r)

/-- What a link was asked to settle was handed out. -/
theorem mem_of_asked (h : s.Balanced) {x : Handout} (hx : x ∈ s.asked) : x ∈ s.handouts := by
  obtain ⟨lost, hp, -⟩ := h.balance x.receiver
  have hm : x ∈ ofReceiver x.receiver s.asked := List.mem_filter.mpr ⟨hx, decide_eq_true rfl⟩
  exact List.mem_of_mem_filter
    (hp.mem_iff.mpr (List.mem_append_left _ (List.mem_append_right _ hm)))

/-- Two messages that were handed out under one token are one. -/
theorem eq_of_token (h : s.Balanced) {x y : Handout} (hx : x ∈ s.handouts) (hy : y ∈ s.handouts)
    (ht : x.token = y.token) : x = y :=
  List.inj_on_of_nodup_map h.distinct hx hy ht

/-- A message of an open receiver is in stock, or a link was asked to settle it. -/
theorem stock_or_asked (h : s.Balanced) {x : Handout} (hx : x ∈ s.handouts)
    (ho : (s.client.receiver x.receiver).closed = false) :
    x ∈ s.client.stock x.receiver ∨ x ∈ s.asked := by
  obtain ⟨lost, hp, hl⟩ := h.balance x.receiver
  have hm : x ∈ ofReceiver x.receiver s.handouts := List.mem_filter.mpr ⟨hx, decide_eq_true rfl⟩
  rw [hl ho, List.append_nil] at hp
  exact (List.mem_append.mp (hp.mem_iff.mp hm)).imp id List.mem_of_mem_filter

/-- Nothing is moved while the receivers and the books stay as they are. -/
theorem of_frame (h : s.Balanced) (hr : t.client.receivers = s.client.receivers)
    (hb : s.client.SameBooks t.client) (hh : t.handouts = s.handouts)
    (ha : t.askings = s.askings) : t.Balanced where
  drawn x hx := by
    rw [hb.1, hb.2.1]
    exact h.drawn x (hh ▸ hx)
  distinct := hh ▸ h.distinct
  balance r := by
    rw [asked, ha, hh, Client.stock_congr hr, Client.receiver_congr hr]
    exact h.balance r
  requests := by
    rw [hb.2.2, ha]
    exact h.requests

/-- What the step of a call moves. -/
theorem moved (h : s.Balanced) (hs : s.Sound) {i : Nat} {q : Demand} {c : Call}
    (hi : s.calls[i]? = some ⟨q, .on c⟩) (hr : c.isReady s.now s.client = true) (r : Nat) :
    ∃ gone, (s.client.stock r ++ ofReceiver r (c.handouts s.client)).Perm
        ((s.advance i q c).client.stock r ++
          ofReceiver r ((c.asking? s.client i).toList.map (·.subject)) ++ gone) ∧
      (((s.advance i q c).client.receiver r).closed = false → gone = []) := by
  have hfits := hs.fits i q c hi
  have hin (r p : Nat) (ht : c.touched? = some (r, p)) :
      p < (s.client.receiver r).lanes.length := by
    have hkeeps := hs.keeps_of_getElem? hi
    obtain ⟨k, hc, hk, -⟩ := c.claim_of_touched hkeeps hr ht
    have hplaced := hkeeps.placed k (List.mem_append_left _ (hc ▸ List.mem_singleton_self k))
    rw [hk] at hplaced
    exact hplaced
  exact (c.deed s.now hfits.known).stock rfl hs.client hfits hin h.nodup_stock i r

/-- What is in stock after a step was in stock before, or was just handed out. -/
theorem mem_stock_of_advance (h : s.Balanced) (hs : s.Sound) {i : Nat} {q : Demand} {c : Call}
    (hi : s.calls[i]? = some ⟨q, .on c⟩) (hr : c.isReady s.now s.client = true) {r : Nat}
    {x : Handout} (hx : x ∈ (s.advance i q c).client.stock r) :
    x ∈ s.client.stock r ∨ x ∈ c.handouts s.client := by
  obtain ⟨gone, hmoved, -⟩ := h.moved hs hi hr r
  have hm := hmoved.mem_iff.mpr (List.mem_append_left _ (List.mem_append_left _ hx))
  exact (List.mem_append.mp hm).imp_right List.mem_of_mem_filter

/-- The step of a call. -/
theorem advance (h : s.Balanced) (hs : s.Sound) {i : Nat} {q : Demand} {c : Call}
    (hi : s.calls[i]? = some ⟨q, .on c⟩) (hr : c.isReady s.now s.client = true) :
    (s.advance i q c).Balanced := by
  have hadds := c.adds s.now s.client i
  refine ⟨fun x hx => ?_, ?_, fun r => ?_, ?_⟩
  · have hsupply : (s.advance i q c).client.supply = s.client.supply := hadds.supply
    rw [hsupply]
    obtain hx | hx := List.mem_append.mp hx
    · obtain ⟨number, used, he, hlt⟩ := h.drawn x hx
      exact ⟨number, used, he, Nat.lt_of_lt_of_le hlt (Nat.le_trans (Nat.le_add_right _ _)
        hadds.issued)⟩
    · obtain ⟨number, used, he, -, hlt⟩ := Call.mem_handouts hx
      exact ⟨number, used, he, Nat.lt_of_lt_of_le hlt hadds.issued⟩
  · change ((s.handouts ++ c.handouts s.client).map (·.token)).Nodup
    rw [List.map_append]
    refine h.distinct.append (c.nodup_handouts s.client) fun token hold hnew => ?_
    obtain ⟨x, hx, rfl⟩ := List.mem_map.mp hold
    obtain ⟨y, hy, he⟩ := List.mem_map.mp hnew
    obtain ⟨number, used, hn, hlt⟩ := h.drawn x hx
    obtain ⟨number', used', hn', hle, -⟩ := Call.mem_handouts hy
    have := lockToken_inj (hn'.symm.trans (he.trans hn))
    omega
  · obtain ⟨gone, hmoved, hgone⟩ := h.moved hs hi hr r
    obtain ⟨lost, hold, hlost⟩ := h.balance r
    refine ⟨lost ++ gone, ?_, fun ho => ?_⟩
    · change (ofReceiver r (s.handouts ++ c.handouts s.client)).Perm
        (_ ++ ofReceiver r ((s.askings ++ _).map _) ++ _)
      rw [ofReceiver_append, List.map_append, ofReceiver_append]
      exact perm_carry hold hmoved
    · rw [hgone ho, List.append_nil]
      exact hlost (hs.open_of_advance hi ho)
  · change (c.step s.now s.client).state.settlements = (s.askings ++ _).map _
    rw [hadds.settlements, h.requests, List.map_append]

theorem turn (h : s.Balanced) (hs : s.Sound) (ht : Turn s t) : t.Balanced := by
  cases ht with
  | accepts q => exact ⟨h.drawn, h.distinct, h.balance, h.requests⟩
  | advances i q c hi hr => exact h.advance hs hi hr
  | cutsShort i q c =>
    exact h.of_frame (c.receivers_drop s.client) (c.sameBooks_drop s.client) rfl rfl
  | arranges => exact h.of_frame rfl ⟨rfl, rfl, rfl⟩ rfl rfl
  | waits => exact ⟨h.drawn, h.distinct, h.balance, h.requests⟩

end Balanced

/-- **The books agree** in every traffic that can come about. -/
theorem Reachable.balanced (h : s.Reachable) : s.Balanced :=
  h.invariant balanced_start fun _ _ hl ht hb => hb.turn hl.sound ht

end Traffic

end PeekLock.Remote
