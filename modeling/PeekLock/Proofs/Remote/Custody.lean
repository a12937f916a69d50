import PeekLock.Proofs.Remote.Presentations

/-!
# PeekLock.Proofs.Remote.Custody

A message that was handed out waits until it is settled, once.

As long as its receiver is open, a message lies in the lane that its token
names, and whoever presents the token finds it there.  The first one to
find it has the link asked; everybody else is told that the lock is lost.
-/

namespace PeekLock.Remote

/-! ## Finding a message again -/

/-- A message in stock lies in the lane that its token names. -/
theorem Client.Sound.found {s : Client} (hs : s.Sound) {r : Nat} {h : Handout}
    (hm : h ∈ s.stock r) (ho : (s.receiver r).closed = false) :
    ∃ p, laneOf h.token = some p ∧ (s.receiver r).listed[p]? = some p ∧
      ((s.lane r p).message? h.token).isSome := by
  obtain ⟨l, hl, hx⟩ := List.mem_flatMap.mp hm
  obtain ⟨p, hp⟩ := List.mem_iff_getElem?.mp hl
  obtain ⟨hlt, -⟩ := List.getElem?_eq_some_iff.mp hp
  have hlane := (hs r).lanes l hl
  rw [Lane.stock] at hx
  split at hx
  · obtain ⟨x, hmem, rfl⟩ := List.mem_map.mp hx
    obtain ⟨supply, used, hn⟩ := hlane.named x hmem
    refine ⟨p, ?_, ?_, ?_⟩
    · rw [hn, laneOf_lockToken supply hlane.word, (hs r).numbered ho p l hp]
    · rw [(hs r).inOrder ho]
      exact List.getElem?_range hlt
    · rw [Client.lane_of_getElem? hp, Lane.message?, Option.isSome_map, List.find?_isSome]
      exact ⟨x, hmem, decide_eq_true rfl⟩
  · contradiction

/-- Whoever is told that the lock is lost has not presented the token of a message in stock. -/
theorem Settle.Loses.not_stock {s : Client} {c : Settle} (h : c.Loses s) (hs : s.Sound)
    (hf : c.Fits s) (ho : (s.receiver c.receiver).closed = false) {x : Handout}
    (hx : x ∈ s.stock c.receiver) : x.token ≠ c.token := by
  intro ht
  obtain ⟨p, hp, hlisted, hfound⟩ := hs.found hx ho
  rw [ht] at hp hfound
  cases h with
  | unnamed hc hn =>
    rw [hp] at hn
    contradiction
  | unlisted number list hc hn =>
    rw [hf.finding number list hc] at hp
    cases hp
    rw [hlisted] at hn
    contradiction
  | unknown position ticket hc hn =>
    rw [hf.entering position ticket hc ho] at hp
    cases hp
    rw [hn] at hfound
    contradiction

/-! ## What a receive returns -/

theorem Deed.returned {s : Client} {c : Call} {sets : List LaneSet} {ms : List Message}
    (h : Deed s c sets (.done (.received (.ok ms)))) :
    ∃ k : Receive, c = .receiving k ∧ ∀ m ∈ ms, ∃ x ∈ c.handouts s, x.receiver = k.receiver ∧
      m = x.message.message x.token := by
  generalize hp : Progress.done (Outcome.received (.ok ms)) = p at h
  cases h with
  | handsOut c position ticket link deadline hc tokened ht =>
    cases hp
    refine ⟨c, rfl, fun m hm => ?_⟩
    obtain ⟨x, hx, rfl⟩ := List.mem_map.mp hm
    rw [Call.handouts_pulling hc, ← ht]
    exact ⟨_, List.mem_map_of_mem hx, rfl, rfl⟩
  | sends c p | opens c p =>
    obtain ⟨result, -, hp⟩ := Progress.map_eq_done hp.symm
    cases hp
  | adds c list ticket link problem hc p hp' =>
    obtain ⟨e, rfl⟩ | ⟨ticket', deadline, rfl⟩ := hp' <;> cases hp
  | unlists c list hc p hp' | goesOn c position ticket problem rest tally hc p hp' =>
    obtain ⟨result, rfl⟩ | ⟨position', ticket', rest', tally', -, rfl⟩ := hp' <;> cases hp
  | disposes c position ticket rest tally hc p hp' =>
    obtain (⟨result, rfl⟩ | ⟨position', ticket', rest', tally', -, rfl⟩) | ⟨problem, tally', rfl⟩ :=
      hp' <;> cases hp
  | _ => cases hp

namespace Traffic

variable {s t u : Traffic}

/-- Every message that a receive has returned was handed out by its receiver. -/
def Returned (s : Traffic) : Prop :=
  ∀ (i r most : Nat) (timeout : Duration) (ms : List Message),
    s.calls[i]? = some ⟨.receive r most timeout, .done (.received (.ok ms))⟩ →
      ∀ m ∈ ms, ∃ h ∈ s.handouts, h.receiver = r ∧ m = h.message.message h.token

theorem Returned.turn (h : s.Returned) (hs : s.Sound) (hd : s.Demanded) (ht : Turn s t) :
    t.Returned := by
  intro j r most timeout ms hj m hm
  cases ht with
  | accepts q hr =>
    obtain hj | ⟨-, hx⟩ := entry_of_accept hj
    · exact h j r most timeout ms hj m hm
    · cases hx
  | advances i q c hi hr ho =>
    obtain ⟨-, hj⟩ | ⟨-, hx⟩ := entry_of_set hj
    · obtain ⟨x, hx, hreceiver, hmessage⟩ := h j r most timeout ms hj m hm
      exact ⟨x, List.mem_append_left _ hx, hreceiver, hmessage⟩
    · injection hx with hq hp
      subst hq
      have hdeed := c.deed s.now (hs.fits i _ _ hi).known
      rw [← hp] at hdeed
      obtain ⟨k, rfl, hall⟩ := hdeed.returned
      obtain ⟨x, hx, hreceiver, hmessage⟩ := hall m hm
      have hmatter : Matter.receiving k.receiver = .receiving r := hd.calls i _ hi
      cases hmatter
      exact ⟨x, List.mem_append_right _ hx, hreceiver, hmessage⟩
  | cutsShort i q c o hi ho =>
    obtain ⟨-, hj⟩ | ⟨-, hx⟩ := entry_of_set hj
    · exact h j r most timeout ms hj m hm
    · cases hx
      obtain ho | ⟨e, ho⟩ := ho <;> cases ho
  | arranges => exact h j r most timeout ms hj m hm
  | waits => exact h j r most timeout ms hj m hm

/-- **What was returned was handed out**, in every traffic that can come about. -/
theorem Reachable.returned (h : s.Reachable) : s.Returned :=
  h.invariant (fun _ _ i _ _ _ _ hi => (calls_start i _ hi).elim) fun _ _ hl ht hr =>
    hr.turn hl.sound hl.demanded ht

/-! ## Waiting to be settled -/

/-- Nobody who presented the token of a message has got an answer yet. -/
def Awaits (s : Traffic) (h : Handout) : Prop :=
  ∀ (i : Nat) (v : Verdict) (p : Progress Call Outcome),
    s.calls[i]? = some ⟨.settle h.receiver h.token v, p⟩ → ∃ c, p = .on c

/-- A message waits until a link is asked to settle it. -/
def Waits (s : Traffic) (h : Handout) : Prop :=
  h ∈ s.handouts ∧ ((s.client.receiver h.receiver).closed = false → h ∈ s.asked ∨ s.Awaits h)

/-- Whoever gets an answer had a link asked, or somebody else had it asked before. -/
theorem Reachable.asked_of_done {h : Handout} (hs : s.Reachable) (hh : h ∈ s.handouts)
    (ho : (s.client.receiver h.receiver).closed = false) {i : Nat} {v : Verdict} {k : Settle}
    (hi : s.calls[i]? = some ⟨.settle h.receiver h.token v, .on (.settling k)⟩) {o : Outcome}
    (hp : (Call.step s.now s.client (.settling k)).progress = .done o) : h ∈ s.asked := by
  by_contra hn
  obtain ⟨k', hk, hr, ht, -⟩ := Call.eq_settling (hs.demanded.calls _ _ hi)
  cases hk
  have hfits := hs.sound.fits _ _ _ hi
  have hdeed := Call.deed s.now hfits.known
  have hstock : h ∈ s.client.stock k.receiver := by
    rw [hr]
    exact (hs.balanced.stock_or_asked hh ho).resolve_right hn
  rw [← hr] at ho
  rw [hp] at hdeed
  generalize (Call.step s.now s.client (.settling k)).state.receivers = sets at hdeed
  cases hdeed with
  | loses _ hc => exact hc.not_stock hs.sound.client hfits ho hstock ht.symm
  | refuses _ hc hclosed =>
    rw [ho] at hclosed
    contradiction
  | misses _ position ticket m hc hm hl =>
    exact (hs.sound.client.lane k.receiver position).link_of_message? hm hl
  | settles _ position ticket problem hc =>
    -- it was asked for before, and under this token nothing but `h` can have been
    have hp := hs.answerable.presented _ _ _ _ _ hi
    cases hp with
    | comes _ hpoint =>
      rw [hc] at hpoint
      contradiction
    | asks _ _ _ a _ hby ha =>
      have ha' : a ∈ s.askings := List.mem_of_mem_filter (hby ▸ List.mem_singleton_self a)
      have hsubject : a.subject ∈ s.asked := List.mem_map_of_mem ha'
      have heq := hs.balanced.eq_of_token (hs.balanced.mem_of_asked hsubject) hh ha.token
      exact hn (heq ▸ hsubject)

/-- Whoever gets an answer first had a link asked. -/
theorem Awaits.advance {h : Handout} (hw : s.Awaits h) (hs : s.Reachable) (hh : h ∈ s.handouts)
    (ho : (s.client.receiver h.receiver).closed = false) (hn : h ∉ s.asked) {i : Nat} {q : Demand}
    {c : Call} (hi : s.calls[i]? = some ⟨q, .on c⟩) : (s.advance i q c).Awaits h := by
  intro j v p hj
  obtain ⟨-, hj⟩ | ⟨rfl, hx⟩ := entry_of_set hj
  · exact hw j v p hj
  · injection hx with hq hp
    subst hq
    obtain ⟨k, rfl, -⟩ := Call.eq_settling (hs.demanded.calls _ _ hi)
    cases p with
    | on c => exact ⟨c, rfl⟩
    | done o => exact (hn (hs.asked_of_done hh ho hi hp.symm)).elim

theorem Waits.turn {h : Handout} (hw : s.Waits h) (hs : s.Reachable) (ht : Turn s t) :
    t.Waits h := by
  obtain ⟨hh, hw⟩ := hw
  cases ht with
  | accepts q hr =>
    refine ⟨hh, fun ho => (hw ho).imp id fun hw j v p hj => ?_⟩
    obtain hj | ⟨-, hx⟩ := entry_of_accept hj
    · exact hw j v p hj
    · injection hx with _ hp
      exact ⟨_, hp⟩
  | advances i q c hi hr ho =>
    refine ⟨List.mem_append_left _ hh, fun hopen => ?_⟩
    have hbefore := hs.sound.open_of_advance hi hopen
    by_cases hn : h ∈ s.asked
    · exact .inl (by rw [asked, advance, List.map_append]; exact List.mem_append_left _ hn)
    · exact .inr (((hw hbefore).resolve_left hn).advance hs hh hbefore hn hi)
  | cutsShort i q c o hi ho =>
    refine ⟨hh, fun hopen => ?_⟩
    have hreceivers := Client.receiver_congr (c.receivers_drop s.client) h.receiver
    refine (hw (hreceivers ▸ hopen)).imp id fun hw j v p hj => ?_
    obtain ⟨-, hj⟩ | ⟨rfl, hx⟩ := entry_of_set hj
    · exact hw j v p hj
    · injection hx with hq
      subst hq
      cases hs.demanded.calls _ _ hi
  | arranges => exact ⟨hh, hw⟩
  | waits => exact ⟨hh, hw⟩

/-- **A message waits** from when it was handed out, unless its token was presented before. -/
theorem Leads.waits {h : Handout} (hs : s.Reachable) (hh : h ∈ s.handouts)
    (hn : ∀ x ∈ s.calls, ∀ v, x.demand ≠ .settle h.receiver h.token v) (hl : s.Leads t) :
    t.Waits h := by
  refine hl.invariant (P := (·.Waits h)) ⟨hh, fun _ => .inr fun i v p hi => ?_⟩
    fun t u ht hturn hw => hw.turn (hs.leads ht) hturn
  exact (hn _ (List.mem_of_getElem? hi) v rfl).elim

/-! ## Being settled once -/

/-- The settlements that links were asked for because of a token. -/
def askingsFor (s : Traffic) (r : Nat) (token : LockToken) : List Asking :=
  s.askings.filter fun a => a.subject.receiver = r ∧ a.subject.token = token

/-- A message is asked for at most once. -/
theorem Balanced.askingsFor_eq (h : s.Balanced) {a : Asking} (ha : a ∈ s.askings) :
    s.askingsFor a.subject.receiver a.subject.token = [a] := by
  have hd := h.nodup_receiver a.subject.receiver
  rw [List.map_append] at hd
  have hd := hd.of_append_right
  rw [ofReceiver, asked, List.filter_map, List.map_map] at hd
  have hone := filter_eq_singleton hd (List.mem_filter.mpr ⟨ha, decide_eq_true rfl⟩)
  rw [List.filter_filter] at hone
  rw [askingsFor, ← hone]
  refine List.filter_congr fun b _ => ?_
  rw [Bool.decide_and, Bool.and_comm]
  rfl

/-- What has become of a message. -/
inductive Custody (s : Traffic) (h : Handout) : Prop where
  /-- No link was asked to settle it, and nobody who presented it has got an answer yet. -/
  | kept (hn : s.askingsFor h.receiver h.token = []) (hw : s.Awaits h)
  /-- One call that presented it had the link asked once, with the message itself, and
  ends with the answer; to everybody else the lock is lost. -/
  | settled (a : Asking) (hn : s.askingsFor h.receiver h.token = [a]) (hs : a.subject = h)
    (p : Progress Call Outcome)
    (hi : s.calls[a.call]? = some ⟨.settle h.receiver h.token a.verdict, p⟩)
    (hp : ∀ o, p = .done o → o = .settled (Settle.answer a.verdict a.problem))
    (ho : ∀ (j : Nat) (v : Verdict) (o : Outcome), j ≠ a.call →
      s.calls[j]? = some ⟨.settle h.receiver h.token v, .done o⟩ →
        s.askingsBy j = [] ∧ o = .settled (.error (.lockLost h.token.text)))

/-- Whoever got an answer had a link asked, or lost the lock of an open receiver. -/
theorem Answerable.answer (h : s.Answerable) {i r : Nat} {token : LockToken} {v : Verdict}
    {o : Outcome} (hi : s.calls[i]? = some ⟨.settle r token v, .done o⟩)
    (ho : (s.client.receiver r).closed = false) :
    (∃ a ∈ s.askingsFor r token, a.call = i ∧ o = .settled (Settle.answer v a.problem)) ∨
      s.askingsBy i = [] ∧ o = .settled (.error (.lockLost token.text)) := by
  have hp := h.presented i r token v _ hi
  cases hp with
  | answered a hn ha =>
    obtain ⟨hm, hc⟩ := List.mem_filter.mp (hn ▸ List.mem_singleton_self a : a ∈ s.askingsBy i)
    exact .inl ⟨a, List.mem_filter.mpr ⟨hm, decide_eq_true ⟨ha.receiver, ha.token⟩⟩,
      of_decide_eq_true hc, rfl⟩
  | lost hn => exact .inr ⟨hn, rfl⟩
  | refused hn hc =>
    rw [ho] at hc
    contradiction

theorem Waits.custody {h : Handout} (hw : s.Waits h) (hs : s.Reachable)
    (ho : (s.client.receiver h.receiver).closed = false) : s.Custody h := by
  by_cases hasked : h ∈ s.asked
  · obtain ⟨a, ha, hsubject⟩ := List.mem_map.mp hasked
    have hone := hs.balanced.askingsFor_eq ha
    obtain ⟨r, token, v, p, hanswers, hi⟩ := hs.answerable.asked a ha
    obtain ⟨rfl, rfl, rfl⟩ := hanswers
    subst hsubject
    refine .settled a hone rfl p hi (fun o hp => ?_) fun j v o hj hjo => ?_
    · subst hp
      obtain ⟨b, hb, -, rfl⟩ | ⟨hnone, -⟩ := hs.answerable.answer hi ho
      · rw [hone] at hb
        rw [List.mem_singleton.mp hb]
      · have hmem : a ∈ s.askingsBy a.call := List.mem_filter.mpr ⟨ha, decide_eq_true rfl⟩
        rw [hnone] at hmem
        contradiction
    · obtain ⟨b, hb, hc, -⟩ | hlost := hs.answerable.answer hjo ho
      · rw [hone] at hb
        rw [List.mem_singleton.mp hb] at hc
        exact (hj hc.symm).elim
      · exact hlost
  · refine .kept (List.filter_eq_nil_iff.mpr fun a ha => ?_) ((hw.2 ho).resolve_left hasked)
    intro hof
    obtain ⟨-, ht⟩ := of_decide_eq_true hof
    have hm : a.subject ∈ s.asked := List.mem_map_of_mem ha
    rw [hs.balanced.eq_of_token (hs.balanced.mem_of_asked hm) hw.1 ht] at hm
    exact hasked hm

end Traffic

end PeekLock.Remote
