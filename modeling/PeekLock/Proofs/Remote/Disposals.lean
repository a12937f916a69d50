import PeekLock.Proofs.Remote.Registers

/-!
# PeekLock.Proofs.Remote.Disposals

Closing a receiver disposes every link that was opened for it, once.

As long as a receiver is open, its lanes have the links that were opened
for it, in that order.  The close that marks it waits until nobody is
changing the list of the lanes; from then on no lane is added
(`Stands`, `Unlisted`), and the close goes through the lanes one by one,
whatever a disposal answers.
-/

namespace PeekLock.Remote

/-! ## Verdicts -/

/-- What is answered after some disposals and another one. -/
theorem Register.verdict_append (ds : List Disposal) (d : Disposal) :
    verdict (ds ++ [d]) = Close.firstFailure (verdict ds) d.problem := by
  rw [verdict, verdict, List.findSome?_append]
  cases ds.findSome? (·.problem) with
  | some problem => rfl
  | none =>
    cases hp : d.problem <;> simp [Close.firstFailure, hp]

theorem Register.verdict_eq_ok {ds : List Disposal} :
    verdict ds = .ok () ↔ ∀ d ∈ ds, d.problem = none := by
  rw [verdict, ← List.findSome?_eq_none_iff]
  cases ds.findSome? (·.problem) <;> simp

theorem Register.verdict_eq_error {ds : List Disposal} {e : BusError} (h : verdict ds = .error e) :
    ∃ before d after problem, ds = before ++ d :: after ∧ (∀ x ∈ before, x.problem = none) ∧
      d.problem = some problem ∧ e = .internalError problem := by
  rw [verdict] at h
  split at h
  · contradiction
  · next problem hp =>
    cases h
    obtain ⟨before, d, after, rfl, hd, hbefore⟩ := List.findSome?_eq_some_iff.mp hp
    exact ⟨before, d, after, problem, rfl, hbefore, hd, rfl⟩

namespace Register

variable {s t : Register} {r : Nat}

/-! ## How far a close has come -/

/-- Of the links of a receiver the first so many are disposed, and the others are still there. -/
structure Disposed (s : Register) (r k : Nat) : Prop where
  le : k ≤ (s.openedFor r).length
  links : (s.traffic.client.receiver r).links =
    List.replicate k none ++ ((s.openedFor r).drop k).map some
  disposals : (s.disposalsOf r).map (·.link) = (s.openedFor r).take k

/-- Where a close is, that has so many lanes to go through and is done with the first of them. -/
inductive Visits (r lanes k : Nat) (verdict : Except BusError Unit) :
    Progress Call Outcome → Prop where
  | enters (ticket : Nat) (tally : Close.Tally) (hk : k < lanes) (hv : tally.result = verdict) :
    Visits r lanes k verdict (.on (.closing
      ⟨r, .entering k ticket (List.range' (k + 1) (lanes - (k + 1))) tally⟩))
  | disposes (position ticket : Nat) (problem : Option String) (tally : Close.Tally)
    (hv : Close.firstFailure tally.result problem = verdict) :
    Visits r lanes k verdict (.on (.closing
      ⟨r, .disposing position ticket problem (List.range' k (lanes - k)) tally⟩))
  | returns (hk : k = lanes) : Visits r lanes k verdict (.done (.closed verdict))

/-- Nobody is opening a link for a receiver. -/
def Quiet (s : Traffic) (r : Nat) : Prop :=
  ∀ (j : Nat) (q : Demand) (c : Receive), s.calls[j]? = some ⟨q, .on (.receiving c)⟩ →
    c.receiver = r → c.point.isOpening = false

/-- The lanes of a receiver are taken off the list, and the close goes through them. -/
structure Unlisted (s : Register) (r i k : Nat) : Prop where
  closed : (s.traffic.client.receiver r).closed = true
  closers : s.closersOf r = [i]
  disposed : s.Disposed r k
  call : ∃ p, s.traffic.calls[i]? = some ⟨.close r, p⟩ ∧
    Visits r (s.openedFor r).length k (verdict (s.disposalsOf r)) p
  quiet : Quiet s.traffic r

/-- How far a receiver is from being closed. -/
inductive Stands (s : Register) (r : Nat) : Prop where
  | opened (ho : (s.traffic.client.receiver r).closed = false) (hc : s.closersOf r = [])
    (hd : s.Disposed r 0)
  | marked (i ticket : Nat) (hm : (s.traffic.client.receiver r).closed = true)
    (hl : (s.traffic.client.receiver r).listed =
      List.range (s.traffic.client.receiver r).lanes.length)
    (hc : s.closersOf r = [i])
    (hi : s.traffic.calls[i]? = some ⟨.close r, .on (.closing ⟨r, .taking ticket⟩)⟩)
    (hd : s.Disposed r 0)
  | unlisted (i k : Nat) (hu : s.Unlisted r i k)

/-! ## One disposal -/

namespace Disposed

variable {k : Nat}

theorem zero (hl : (s.traffic.client.receiver r).links = (s.openedFor r).map some)
    (hd : s.disposalsOf r = []) : s.Disposed r 0 :=
  ⟨Nat.zero_le _, hl, congrArg (List.map (·.link)) hd⟩

theorem disposals_zero (h : s.Disposed r 0) : s.disposalsOf r = [] :=
  List.map_eq_nil_iff.mp h.disposals

/-- There are as many lanes as links were opened. -/
theorem length_lanes (h : s.Disposed r k) :
    (s.traffic.client.receiver r).lanes.length = (s.openedFor r).length := by
  have hlength := congrArg List.length h.links
  rw [LaneSet.links, List.length_map, List.length_append, List.length_replicate,
    List.length_map, List.length_drop] at hlength
  have := h.le
  omega

/-- The next lane has the next of the links. -/
theorem link_lane (h : s.Disposed r k) (hk : k < (s.openedFor r).length) :
    (s.traffic.client.lane r k).link = some (s.openedFor r)[k] := by
  have hlink : (s.traffic.client.receiver r).links[k]? = some (some (s.openedFor r)[k]) := by
    rw [h.links, List.getElem?_append_right (Nat.le_of_eq List.length_replicate),
      List.length_replicate, Nat.sub_self, List.drop_eq_getElem_cons hk]
    rfl
  have hlane := Client.getElem?_lane (Nat.lt_of_lt_of_eq hk h.length_lanes.symm)
  rw [LaneSet.links, List.getElem?_map, hlane] at hlink
  exact Option.some.inj hlink

/-- **Another link is disposed.** -/
theorem succ (h : s.Disposed r k) (hk : k < (s.openedFor r).length) {d : Disposal}
    (ho : t.openedFor r = s.openedFor r)
    (hl : (t.traffic.client.receiver r).links = (s.traffic.client.receiver r).links.set k none)
    (hd : t.disposalsOf r = s.disposalsOf r ++ [d]) (hlink : (s.openedFor r)[k] = d.link) :
    t.Disposed r (k + 1) where
  le := by rwa [ho]
  links := by
    rw [hl, ho, h.links, List.set_append_right _ _ (Nat.le_of_eq List.length_replicate),
      List.length_replicate, Nat.sub_self, List.drop_eq_getElem_cons hk, List.map_cons,
      List.set_cons_zero, List.replicate_succ', List.append_assoc]
    rfl
  disposals := by
    rw [hd, ho, List.map_append, h.disposals, List.take_succ_eq_append_getElem hk, hlink]
    rfl

end Disposed

/-- A close goes on with the lanes that are left. -/
theorem Visits.of_goes {lanes k : Nat} {point : Close.Point} {verdict : Except BusError Unit}
    {p : Progress Close (Except BusError Unit)} (hk : k ≤ lanes)
    (h : Close.Goes ⟨r, point⟩ verdict (List.range' k (lanes - k)) p) :
    Visits r lanes k verdict (p.map .closing .closed) := by
  obtain rfl | hlt := Nat.eq_or_lt_of_le hk
  · rw [Nat.sub_self] at h
    cases h
    exact .returns rfl
  · have hrange : List.range' k (lanes - k) = k :: List.range' (k + 1) (lanes - (k + 1)) := by
      rw [← List.range'_succ]
      congr 1
      omega
    rw [hrange] at h
    cases h with
    | enters position ticket rest tally ht => exact .enters ticket tally hlt ht

/-! ## What stays as it is -/

/-- Nothing is opened, closed or disposed for a receiver. -/
structure Same (s t : Register) (r : Nat) : Prop where
  alike : (s.traffic.client.receiver r).Alike (t.traffic.client.receiver r)
  opened : t.openedFor r = s.openedFor r
  closers : t.closersOf r = s.closersOf r
  disposals : t.disposalsOf r = s.disposalsOf r

theorem Disposed.same {k : Nat} (h : s.Disposed r k) (hs : s.Same t r) : t.Disposed r k where
  le := by rw [hs.opened]; exact h.le
  links := by rw [hs.alike.links, hs.opened]; exact h.links
  disposals := by rw [hs.disposals, hs.opened]; exact h.disposals

/-- A receiver stands where it stood, while its close stays where it is and nobody sets about
opening a link after all. -/
theorem Stands.same (h : s.Stands r) (hs : s.Same t r)
    (hcall : ∀ i ∈ s.closersOf r, ∀ p, s.traffic.calls[i]? = some ⟨.close r, p⟩ →
      p ≠ .on (.closing ⟨r, .marking⟩) → t.traffic.calls[i]? = some ⟨.close r, p⟩)
    (hquiet : (s.traffic.client.receiver r).closed = true → Quiet s.traffic r →
      Quiet t.traffic r) : t.Stands r := by
  cases h with
  | opened ho hc hd =>
    exact .opened (hs.alike.closed ▸ ho) (hs.closers ▸ hc) (hd.same hs)
  | marked i ticket hm hl hc hi hd =>
    have hmem : i ∈ s.closersOf r := by rw [hc]; exact List.mem_singleton_self i
    refine .marked i ticket (hs.alike.closed ▸ hm) ?_ (hs.closers ▸ hc)
      (hcall i hmem _ hi fun hp => by cases hp) (hd.same hs)
    rw [hs.alike.listed, hl, hs.alike.length_lanes]
  | unlisted i k hu =>
    have hmem : i ∈ s.closersOf r := by rw [hu.closers]; exact List.mem_singleton_self i
    obtain ⟨p, hi, hv⟩ := hu.call
    refine .unlisted i k ⟨hs.alike.closed ▸ hu.closed, hs.closers ▸ hu.closers,
      hu.disposed.same hs, ⟨p, hcall i hmem p hi fun hp => ?_, ?_⟩, hquiet hu.closed hu.quiet⟩
    · subst hp
      cases hv
    · rw [hs.opened, hs.disposals]
      exact hv

/-! ## Nobody opens a link -/

theorem Quiet.advance {a : Traffic} (h : Quiet a r) (hc : (a.client.receiver r).closed = true)
    {i : Nat} {q : Demand} {c : Call} (hi : a.calls[i]? = some ⟨q, .on c⟩) :
    Quiet (a.advance i q c) r := by
  intro j q' k hj hk
  obtain ⟨-, hj⟩ | ⟨-, hx⟩ := Traffic.entry_of_set hj
  · exact h j q' k hj hk
  · injection hx with _ hp
    cases c with
    | receiving c =>
      obtain ⟨k', hp, hk'⟩ := Progress.map_eq_on hp.symm
      cases hk'
      refine Bool.eq_false_iff.mpr fun hopening => ?_
      obtain ⟨hr, hbefore | hopen⟩ := Receive.isOpening_step hp hopening
      · rw [h i q c hi (hr ▸ hk)] at hbefore
        contradiction
      · rw [← hr, hk, hc] at hopen
        contradiction
    | _ =>
      obtain ⟨k', -, hk'⟩ := Progress.map_eq_on hp.symm
      cases hk'

theorem Quiet.around {a b : Traffic} {m : Move} (h : Quiet a r) (ha : a.Around m b) :
    Quiet b r := by
  intro j q k hj hk
  obtain hj | ⟨-, -, hj⟩ | ⟨-, -, o, hj, -⟩ := ha.entries j _ hj
  · exact h j q k hj hk
  · cases q <;> cases hj
    rfl
  · cases hj

/-- Whoever is alone with the list of the lanes keeps all others from opening a link. -/
theorem quiet_of_taking {a : Traffic} (hs : a.Sound) {i list : Nat} {q : Demand}
    (hi : a.calls[i]? = some ⟨q, .on (.closing ⟨r, .taking list⟩)⟩)
    (hr : a.client.admits (.list r) list = true) : Quiet a r := by
  intro j q' k hj hk
  subst hk
  refine Bool.eq_false_iff.mpr fun hopening => ?_
  have hkeeps := hs.keeps_of_getElem? hi
  have hin := hkeeps.inside_of_admits (k := .waiting (.list k.receiver) list .sole)
    List.mem_cons_self hr
  have hij : i ≠ j := by
    rintro rfl
    rw [hi] at hj
    cases hj
  obtain ⟨ticket, hclaim⟩ : ∃ ticket, .holding (.list k.receiver) ticket ∈ k.claims := by
    rw [Receive.claims]
    cases hp : k.point with
    | opening list ticket => exact ⟨list, List.mem_cons_self⟩
    | linking list ticket problem => exact ⟨list, List.mem_cons_self⟩
    | _ =>
      rw [hp] at hopening
      contradiction
  have hmem : .holding (.list k.receiver) ticket ∈ (a.calls.eraseIdx i).flatMap Entry.claims :=
    List.mem_flatMap.mpr ⟨⟨q', .on (.receiving k)⟩,
      List.mem_eraseIdx_iff_getElem?.mpr ⟨j, Ne.symm hij, hj⟩, hclaim⟩
  have hj := hkeeps.entered _ (List.mem_append_right _ hmem) rfl
  have hshared := hkeeps.shared_of_inside hmem rfl hin hj
  contradiction

/-- Once the lanes are taken off the list, no link is opened for them. -/
theorem Unlisted.opening_ne {i k j : Nat} (h : s.Unlisted r i k) {q : Demand} {c : Call}
    (hj : s.traffic.calls[j]? = some ⟨q, .on c⟩) {o : Opening}
    (ho : c.opening? s.traffic.client = some o) : o.receiver ≠ r := by
  rintro rfl
  obtain ⟨-, hr | ⟨x, rfl, hx, hopening⟩⟩ := Call.opening_cases ho
  · have hclosed := h.closed
    rw [Client.receiver_of_le (Nat.le_of_eq hr.symm)] at hclosed
    contradiction
  · rw [h.quiet j q x hj hx] at hopening
    contradiction

theorem Unlisted.openedFor_turn {i k : Nat} (h : s.Unlisted r i k) (ht : Turn s t) :
    t.openedFor r = s.openedFor r := by
  cases ht with
  | advances j q c hj => exact s.openedFor_note_of_ne j c _ fun o ho => h.opening_ne hj ho
  | passes => rfl

/-! ## Moves -/

/-- The step of a call that does not close the receiver. -/
theorem Stands.advance_other (h : s.Stands r) (hs : s.traffic.Sound) {i : Nat} {q : Demand}
    {c : Call} (hi : s.traffic.calls[i]? = some ⟨q, .on c⟩) (hq : c.matter = q.matter)
    (hne : c.matter ≠ .closing r) : (s.note i c (s.traffic.advance i q c)).Stands r := by
  have hfits := hs.fits i q c hi
  have hclosers := s.closersOf_note_of_ne i c (s.traffic.advance i q c) hne
  have hdisposals := s.disposalsOf_note_of_ne i c (s.traffic.advance i q c) hne
  have hcall (j : Nat) (p : Progress Call Outcome)
      (hj : s.traffic.calls[j]? = some ⟨.close r, p⟩) :
      (s.traffic.advance i q c).calls[j]? = some ⟨.close r, p⟩ := by
    rw [Traffic.advance, List.getElem?_set_ne, hj]
    rintro rfl
    rw [hi] at hj
    cases hj
    exact hne hq
  by_cases hopen : ∃ o, c.opening? s.traffic.client = some o ∧ o.receiver = r
  · obtain ⟨o, ho, rfl⟩ := hopen
    have hopens : s.traffic.client.Opens (c.step s.traffic.now s.traffic.client).state o :=
      Call.opens_step hfits ho
    have hopened : (s.note i c (s.traffic.advance i q c)).openedFor o.receiver =
        s.openedFor o.receiver ++ [o.link] := by
      rw [openedFor_note, ho]
      simp
    have hzero (hd : s.Disposed o.receiver 0) :
        (s.note i c (s.traffic.advance i q c)).Disposed o.receiver 0 := by
      refine .zero ?_ (hdisposals.trans hd.disposals_zero)
      rw [hopened, List.map_append]
      exact hopens.links.trans (congrArg (· ++ [some o.link]) hd.links)
    cases h with
    | opened hr hc hd => exact .opened (hopens.closed.trans hr) (hclosers.trans hc) (hzero hd)
    | marked k ticket hm hl hc hk hd =>
      refine .marked k ticket (hopens.closed.trans hm) ?_ (hclosers.trans hc) (hcall k _ hk)
        (hzero hd)
      have hlength := (hzero hd).length_lanes
      rw [hopened, List.length_append, List.length_singleton, ← hd.length_lanes] at hlength
      rw [hlength, List.range_succ, ← hl]
      exact hopens.listed
    | unlisted k n hu => exact (hu.opening_ne hi ho rfl).elim
  · have hnone (o : Opening) (ho : c.opening? s.traffic.client = some o) : o.receiver ≠ r :=
      fun hr => hopen ⟨o, ho, hr⟩
    refine h.same ⟨?_, s.openedFor_note_of_ne i c _ hnone, hclosers, hdisposals⟩
      (fun j _ p hj _ => hcall j p hj) fun hc hquiet => hquiet.advance hc hi
    change (s.traffic.client.receiver r).Alike ((c.step _ _).state.receiver r)
    cases ho : c.opening? s.traffic.client with
    | some o => exact (Call.opens_step hfits ho).others r (Ne.symm (hnone o ho))
    | none =>
      cases c with
      | closing c => exact (c.turns s.traffic.client).alike rfl fun hr => hne (hr ▸ rfl)
      | _ => exact Call.alike_step hfits rfl ho r

/-! ### The close -/

/-- A step of a close of the receiver, and what the register has of it. -/
structure Closes (s t : Register) (r i : Nat) (point : Close.Point)
    (p : Progress Close (Except BusError Unit)) : Prop where
  turns : Close.Turns s.traffic.client ⟨r, point⟩ t.traffic.client.receivers p
  before : s.traffic.calls[i]? = some ⟨.close r, .on (.closing ⟨r, point⟩)⟩
  after : t.traffic.calls[i]? = some ⟨.close r, p.map .closing .closed⟩
  others : ∀ j p, i ≠ j → s.traffic.calls[j]? = some ⟨.close r, p⟩ →
    t.traffic.calls[j]? = some ⟨.close r, p⟩
  opened : t.openedFor r = s.openedFor r
  closers : t.closersOf r = s.closersOf r ++
    (((Call.closing ⟨r, point⟩).closing? s.traffic.client i).toList.filter (·.receiver = r)).map
      (·.call)
  disposals : t.disposalsOf r = s.disposalsOf r ++
    ((Call.closing ⟨r, point⟩).disposal? s.traffic.client i).toList.filter (·.receiver = r)
  quiet : (s.traffic.client.receiver r).closed = true → Quiet s.traffic r → Quiet t.traffic r

section Close

variable {i : Nat} {point : Close.Point} {p : Progress Close (Except BusError Unit)}

theorem closes_note (hi : s.traffic.calls[i]? = some ⟨.close r, .on (.closing ⟨r, point⟩)⟩) :
    s.Closes (s.note i (.closing ⟨r, point⟩)
      (s.traffic.advance i (.close r) (.closing ⟨r, point⟩))) r i point
      (Close.step s.traffic.client ⟨r, point⟩).progress where
  turns := Close.turns s.traffic.client ⟨r, point⟩
  before := hi
  after := List.getElem?_set_self (List.getElem?_eq_some_iff.mp hi).1
  others j p hij hj := by
    rw [note, Traffic.advance, List.getElem?_set_ne hij, hj]
  opened := s.openedFor_note_of_ne i _ _ fun o ho => by cases ho
  closers := s.closersOf_note ..
  disposals := s.disposalsOf_note ..
  quiet hc hq := hq.advance hc hi

/-- A close that is past marking its receiver is the one that the register knows. -/
theorem Stands.closer (h : s.Stands r) (ho : s.Orderly)
    (hi : s.traffic.calls[i]? = some ⟨.close r, .on (.closing ⟨r, point⟩)⟩)
    (hp : point ≠ .marking) :
    (∃ ticket, point = .taking ticket ∧ (s.traffic.client.receiver r).closed = true ∧
      (s.traffic.client.receiver r).listed =
        List.range (s.traffic.client.receiver r).lanes.length ∧
      s.closersOf r = [i] ∧ s.Disposed r 0) ∨
    ∃ k, s.Unlisted r i k ∧ Visits r (s.openedFor r).length k (verdict (s.disposalsOf r))
      (.on (.closing ⟨r, point⟩)) := by
  have hmem : i ∈ s.closersOf r := ho.closing i _ _ hi hp
  cases h with
  | opened hr hc hd =>
    rw [hc] at hmem
    contradiction
  | marked j ticket hm hl hc hj hd =>
    rw [hc, List.mem_singleton] at hmem
    subst hmem
    rw [hi] at hj
    cases hj
    exact .inl ⟨ticket, rfl, hm, hl, hc, hd⟩
  | unlisted j k hu =>
    have hc := hu.closers
    rw [hc, List.mem_singleton] at hmem
    subst hmem
    obtain ⟨p, hj, hv⟩ := hu.call
    rw [hi] at hj
    cases hj
    exact .inr ⟨k, hu, hv⟩

/-- The receiver is marked. -/
theorem Stands.marks (h : s.Stands r) (hs : s.traffic.Sound) (hstep : s.Closes t r i .marking p) :
    t.Stands r := by
  obtain ⟨hturns, hi, hafter, hothers, hopened, hclosers, hdisposals, hquiet⟩ := hstep
  have hknown : r < s.traffic.client.receivers.length := (hs.fits i _ _ hi).known r rfl
  generalize hsets : t.traffic.client.receivers = sets at hturns
  cases hturns with
  | returns _ hr =>
    refine h.same ⟨Client.Alike.of_receivers hsets r, hopened, ?_, ?_⟩
      (fun j _ p hj hp => ?_) hquiet
    · simpa [Call.closing?, hr] using hclosers
    · simpa [Call.disposal?] using hdisposals
    · refine hothers j p ?_ hj
      rintro rfl
      rw [hi] at hj
      cases hj
      exact hp rfl
  | marks _ hr ticket =>
    have hreceiver : t.traffic.client.receiver r =
        { s.traffic.client.receiver r with closed := true } :=
      (Client.receiver_congr hsets r).trans (Client.receiver_setReceiver_self hknown _)
    cases h with
    | marked j ticket hm =>
      rw [hm] at hr
      contradiction
    | unlisted j k hu =>
      rw [hu.closed] at hr
      contradiction
    | opened _ hc hd =>
      refine .marked i ticket (by rw [hreceiver]) ?_ ?_ hafter (.zero ?_ ?_)
      · rw [hreceiver]
        exact (hs.client r).inOrder hr
      · simpa [Call.closing?, hr, hc] using hclosers
      · rw [hopened, hreceiver]
        exact hd.links
      · simpa [Call.disposal?, hd.disposals_zero] using hdisposals
  | _ => contradiction

/-- The lanes are taken off the list. -/
theorem Stands.unlists {list : Nat} (h : s.Stands r) (hs : s.traffic.Sound) (ho : s.Orderly)
    (hr : s.traffic.client.admits (.list r) list = true)
    (hstep : s.Closes t r i (.taking list) p) : t.Stands r := by
  obtain ⟨hturns, hi, hafter, hothers, hopened, hclosers, hdisposals, hquiet⟩ := hstep
  have hknown : r < s.traffic.client.receivers.length := (hs.fits i _ _ hi).known r rfl
  obtain ⟨-, -, hm, hl, hc, hd⟩ | ⟨k, -, hv⟩ := h.closer ho hi fun hp => by cases hp
  · have hnone : t.disposalsOf r = [] := by
      simpa [Call.disposal?, hd.disposals_zero] using hdisposals
    generalize hsets : t.traffic.client.receivers = sets at hturns
    cases hturns with
    | unlists _ hlist p hp =>
      have hreceiver : t.traffic.client.receiver r =
          { s.traffic.client.receiver r with listed := [] } :=
        (Client.receiver_congr hsets r).trans (Client.receiver_setReceiver_self hknown _)
      refine .unlisted i 0 ⟨by rw [hreceiver]; exact hm, ?_, .zero ?_ hnone, ⟨_, hafter, ?_⟩,
        hquiet hm (quiet_of_taking hs hi hr)⟩
      · simpa [Call.closing?, hc] using hclosers
      · rw [hopened, hreceiver]
        exact hd.links
      · replace hp : Close.Goes ⟨r, .taking list⟩ (.ok ())
          (s.traffic.client.receiver r).listed p := hp
        rw [hl, hd.length_lanes, List.range_eq_range'] at hp
        rw [hnone, hopened]
        exact .of_goes (Nat.zero_le _) hp
    | _ => contradiction
  · cases hv

/-- A lane is entered. -/
theorem Stands.disposes {position ticket : Nat} {rest : List Nat} {tally : Close.Tally}
    (h : s.Stands r) (hs : s.traffic.Sound) (ho : s.Orderly)
    (hstep : s.Closes t r i (.entering position ticket rest tally) p) : t.Stands r := by
  obtain ⟨hturns, hi, hafter, hothers, hopened, hclosers, hdisposals, hquiet⟩ := hstep
  have hknown : r < s.traffic.client.receivers.length := (hs.fits i _ _ hi).known r rfl
  obtain ⟨ticket', hp, -⟩ | ⟨k, hu, hv⟩ := h.closer ho hi fun hp => by cases hp
  · cases hp
  · cases hv with
    | enters _ _ hk hv =>
      have hlink := hu.disposed.link_lane hk
      generalize hsets : t.traffic.client.receivers = sets at hturns
      cases hturns with
      | disposes _ _ link _ _ tally' hc hl ht =>
        cases hc
        rw [hlink] at hl
        cases hl
        have hreceiver := Client.receiver_congr hsets r
        rw [Client.emptied, Client.setLane, Client.receiver_setReceiver_self hknown] at hreceiver
        have hmore : t.disposalsOf r = s.disposalsOf r ++ [⟨i, r, (s.openedFor r)[position],
            (s.traffic.client.ask (.disposeLink (s.openedFor r)[position])).1⟩] := by
          simpa [Call.disposal?, hlink] using hdisposals
        refine .unlisted i (position + 1) ⟨?_, ?_, hu.disposed.succ hk hopened ?_ hmore rfl,
          ⟨_, hafter, ?_⟩, hquiet hu.closed hu.quiet⟩
        · rw [hreceiver]
          exact hu.closed
        · simpa [Call.closing?, hu.closers] using hclosers
        · rw [hreceiver, LaneSet.links, List.map_set]
          rfl
        · rw [hopened, hmore, verdict_append, ← hv, ← ht]
          exact .disposes position ticket _ tally' rfl
      | passes _ _ _ _ hc hl p hp =>
        cases hc
        rw [hlink] at hl
        contradiction
      | _ => contradiction

/-- A lane is left. -/
theorem Stands.goesOn {position ticket : Nat} {problem : Option String} {rest : List Nat}
    {tally : Close.Tally} (h : s.Stands r) (ho : s.Orderly)
    (hstep : s.Closes t r i (.disposing position ticket problem rest tally) p) : t.Stands r := by
  obtain ⟨hturns, hi, hafter, hothers, hopened, hclosers, hdisposals, hquiet⟩ := hstep
  obtain ⟨ticket', hp, -⟩ | ⟨k, hu, hv⟩ := h.closer ho hi fun hp => by cases hp
  · cases hp
  · cases hv with
    | disposes _ _ _ _ hv =>
      generalize hsets : t.traffic.client.receivers = sets at hturns
      cases hturns with
      | goesOn _ _ _ _ _ hc p hp =>
        cases hc
        have hsame : s.Same t r := by
          refine ⟨Client.Alike.of_receivers hsets r, hopened, ?_, ?_⟩
          · simpa [Call.closing?] using hclosers
          · simpa [Call.disposal?] using hdisposals
        refine .unlisted i k ⟨hsame.alike.closed ▸ hu.closed, hsame.closers ▸ hu.closers,
          hu.disposed.same hsame, ⟨_, hafter, ?_⟩, hquiet hu.closed hu.quiet⟩
        rw [hopened, hsame.disposals]
        exact .of_goes hu.disposed.le (hv ▸ hp)
      | _ => contradiction

end Close

/-! ### Every move -/

theorem Stands.turn (h : s.Stands r) (hs : s.Reachable) (ht : Turn s t) : t.Stands r := by
  have hd := hs.traffic.demanded
  cases ht with
  | advances i q c hi hr ho =>
    have hmatter : c.matter = q.matter := hd.calls i _ hi
    by_cases hc : c.matter = .closing r
    · obtain ⟨⟨_, point⟩, rfl, rfl⟩ := Call.eq_closing hc
      cases Demand.eq_close (hc.symm.trans hmatter)
      have hstep := closes_note hi
      cases point with
      | marking => exact h.marks hs.traffic.sound hstep
      | taking list => exact h.unlists hs.traffic.sound hs.orderly hr hstep
      | entering => exact h.disposes hs.traffic.sound hs.orderly hstep
      | disposing => exact h.goesOn hs.orderly hstep
    · exact h.advance_other hs.traffic.sound hi hmatter hc
  | passes m a ha =>
    refine h.same ⟨Client.Alike.of_receivers ha.receivers r, rfl, rfl, rfl⟩ (fun i _ p hi _ => ?_)
      fun _ hq => hq.around ha
    refine ha.kept i _ hi fun c hp => ?_
    have hcovers := hd.calls i _ hi
    rw [hp] at hcovers
    cases hcovers

/-- **How far a receiver is from being closed**, in every register that can come about. -/
theorem Reachable.stands (h : s.Reachable) (r : Nat) : s.Stands r := by
  exact h.invariant (P := (·.Stands r)) (fun _ _ => .opened rfl rfl (.zero rfl rfl))
    fun _ _ hl ht hr => hr.turn hl ht

end Register

end PeekLock.Remote
