import PeekLock.Proofs.Remote.Demands
import PeekLock.Proofs.Remote.Links

/-!
# PeekLock.Proofs.Remote.Registers

Reasoning about the register of the links.

The register goes along with every traffic that can come about
(`Register.exists_traffic`), and a move enters something in it only if a
call takes a step (`Register.Turn`).  What it says about links is what the
other side has seen, and whoever is closing a receiver is in it.
-/

namespace PeekLock.Remote

/-! ## Turns -/

/-- A move that is no step of a call: it begins a call, ends a receive, or leaves the calls
alone. -/
structure Traffic.Around (s : Traffic) (m : Move) (t : Traffic) : Prop where
  receivers : t.client.receivers = s.client.receivers
  spares : s.client.Spares t.client
  entries : ∀ (i : Nat) (x : Entry), t.calls[i]? = some x → s.calls[i]? = some x ∨
    s.calls[i]? = none ∧ m = .begin x.demand ∧ x.progress = .on x.demand.call ∨
    ∃ c : Receive, s.calls[i]? = some ⟨x.demand, .on (.receiving c)⟩ ∧ ∃ o, x.progress = .done o ∧
      (o = .dropped ∨ c.point.isPulling = true ∧ ∃ e, o = .received (.error e))
  kept : ∀ (i : Nat) (x : Entry), s.calls[i]? = some x → (∀ c, x.progress ≠ .on (.receiving c)) →
    t.calls[i]? = some x
  grows : s.calls.length ≤ t.calls.length

/-- What a move does: a call takes its next step, or the move goes around the calls. -/
inductive Traffic.Goes (s : Traffic) : Move → Traffic → Prop where
  | advances (i : Nat) (q : Demand) (c : Call) (hi : s.calls[i]? = some ⟨q, .on c⟩)
    (hr : c.isReady s.now s.client = true) (ho : c.overflowing? s.client = none) :
    Goes s (.advance i) (s.advance i q c)
  | passes (m : Move) (t : Traffic) (ha : s.Around m t)
    (hm : ∀ i q c, m = .advance i → s.calls[i]? = some ⟨q, .on c⟩ →
      c.overflowing? s.client ≠ none) : Goes s m t

namespace Traffic

variable {s : Traffic}

theorem around_accept (s : Traffic) (q : Demand) : s.Around (.begin q) (s.accept q) where
  receivers := rfl
  spares := .of_network rfl
  entries i x hx := by
    obtain hx | ⟨rfl, rfl⟩ := entry_of_accept hx
    · exact .inl hx
    · exact .inr (.inl ⟨List.getElem?_eq_none (Nat.le_refl _), rfl, rfl⟩)
  kept i x hx _ := by
    obtain ⟨hlt, -⟩ := List.getElem?_eq_some_iff.mp hx
    rw [accept, List.getElem?_append_left hlt, hx]
  grows := by
    rw [accept, List.length_append]
    exact Nat.le_add_right _ _

theorem around_cutShort {m : Move} {i : Nat} {q : Demand} {c : Receive} {o : Outcome}
    (hi : s.calls[i]? = some ⟨q, .on (.receiving c)⟩)
    (ho : o = .dropped ∨ c.point.isPulling = true ∧ ∃ e, o = .received (.error e)) :
    s.Around m (s.cutShort i q c o) where
  receivers := c.receivers_drop s.client
  spares := c.spares_drop s.client
  entries j x hx := by
    obtain ⟨-, hx⟩ | ⟨rfl, rfl⟩ := entry_of_set hx
    · exact .inl hx
    · exact .inr (.inr ⟨c, hi, o, rfl, ho⟩)
  kept j x hx hnot := by
    rw [cutShort, List.getElem?_set_ne, hx]
    rintro rfl
    rw [hi] at hx
    cases hx
    exact hnot c rfl
  grows := Nat.le_of_eq List.length_set.symm

theorem around_same {m : Move} {t : Traffic} (hr : t.client.receivers = s.client.receivers)
    (hs : s.client.Spares t.client) (hc : t.calls = s.calls) : s.Around m t where
  receivers := hr
  spares := hs
  entries _ _ hx := .inl (hc ▸ hx)
  kept _ _ hx _ := hc ▸ hx
  grows := Nat.le_of_eq (congrArg List.length hc.symm)

/-- What was demanded stays demanded. -/
theorem Around.exists_entry {m : Move} {t : Traffic} (h : s.Around m t) {i : Nat} {x : Entry}
    (hi : s.calls[i]? = some x) : ∃ p, t.calls[i]? = some ⟨x.demand, p⟩ := by
  obtain ⟨hlt, -⟩ := List.getElem?_eq_some_iff.mp hi
  obtain ⟨y, hy⟩ : ∃ y, t.calls[i]? = some y :=
    ⟨_, List.getElem?_eq_getElem (Nat.lt_of_lt_of_le hlt h.grows)⟩
  obtain hold | ⟨hnone, -⟩ | ⟨c, hold, -⟩ := h.entries i y hy
  · rw [hi] at hold
    cases hold
    exact ⟨_, hy⟩
  · rw [hi] at hnone
    contradiction
  · rw [hi] at hold
    cases hold
    exact ⟨_, hy⟩

theorem goes_of_after {m : Move} {t : Traffic} (h : s.after m = some t) : s.Goes m t := by
  cases does_of_after h with
  | begins q => exact .passes _ _ (s.around_accept q) fun _ _ _ hm => by cases hm
  | advances i q c hi hr ho => exact .advances i q c hi hr ho
  | overflows i q c hi ho =>
    refine .passes _ _ (around_cutShort hi (.inl rfl)) fun j q' c' hj hi' => ?_
    cases hj
    rw [hi] at hi'
    cases hi'
    rw [ho]
    exact Option.some_ne_none c
  | drops i q c hi =>
    exact .passes _ _ (around_cutShort hi (.inl rfl)) fun _ _ _ hm => by cases hm
  | refuses i problem q c position ticket link deadline hi hp =>
    exact .passes _ _ (around_cutShort hi (.inr ⟨by rw [hp]; rfl, _, rfl⟩))
      fun _ _ _ hm => by cases hm
  | arranges =>
    exact .passes _ _ (around_same rfl (.of_requests rfl rfl) rfl) fun _ _ _ hm => by cases hm
  | waits => exact .passes _ _ (around_same rfl (.of_network rfl) rfl) fun _ _ _ hm => by cases hm

end Traffic

theorem Call.eq_closing {c : Call} {r : Nat} (h : c.matter = .closing r) :
    ∃ k : Close, c = .closing k ∧ k.receiver = r := by
  cases c <;> cases h
  exact ⟨_, rfl, rfl⟩

/-- Only a close marks a receiver. -/
theorem Call.matter_of_closing {s : Client} {i : Nat} {c : Call} {x : Closing}
    (h : c.closing? s i = some x) : c.matter = .closing x.receiver := by
  cases c with
  | closing c =>
    simp only [Call.closing?] at h
    split at h
    · split at h <;> cases h
      rfl
    · contradiction
  | _ => contradiction

/-- Only a close disposes links. -/
theorem Call.matter_of_disposal {s : Client} {i : Nat} {c : Call} {d : Disposal}
    (h : c.disposal? s i = some d) : c.matter = .closing d.receiver := by
  cases c with
  | closing c =>
    simp only [Call.disposal?] at h
    split at h
    · obtain ⟨link, -, rfl⟩ := Option.map_eq_some_iff.mp h
      rfl
    · contradiction
  | _ => contradiction

namespace Register

/-- What a move can do with the register. -/
inductive Turn (s : Register) : Register → Prop where
  | advances (i : Nat) (q : Demand) (c : Call) (hi : s.traffic.calls[i]? = some ⟨q, .on c⟩)
    (hr : c.isReady s.traffic.now s.traffic.client = true)
    (ho : c.overflowing? s.traffic.client = none) :
    Turn s (s.note i c (s.traffic.advance i q c))
  | passes (m : Move) (t : Traffic) (ha : s.traffic.Around m t) : Turn s { s with traffic := t }

theorem turn_of_after {s t : Register} {m : Move} (h : s.after m = some t) : Turn s t := by
  obtain ⟨u, hu, rfl⟩ := Option.map_eq_some_iff.mp h
  cases Traffic.goes_of_after hu with
  | advances i q c hi hr ho =>
    simp only [acting?, hi, ho]
    exact .advances i q c hi hr ho
  | passes _ _ ha hm =>
    have hnone : s.acting? m = none := by
      cases m with
      | advance i =>
        simp only [acting?]
        split
        · next q c hi =>
          rw [if_neg fun hn => hm i q c rfl hi (Option.isNone_iff_eq_none.mp hn)]
        · rfl
      | _ => rfl
    rw [hnone]
    exact .passes m u ha

/-! ## Runs -/

variable {s t u : Register}

theorem traffic_of_after {m : Move} (h : s.after m = some t) :
    s.traffic.after m = some t.traffic := by
  obtain ⟨u, hu, rfl⟩ := Option.map_eq_some_iff.mp h
  rw [hu]
  split <;> rfl

theorem Leads.trans (h : Leads s t) (k : Leads t u) : Leads s u := by
  induction k with
  | refl => exact h
  | step _ hm ih => exact ih.step hm

/-- What a register leads to, its traffic leads to. -/
theorem Leads.traffic (h : s.Leads t) : s.traffic.Leads t.traffic := by
  induction h with
  | refl => exact .refl _
  | step _ hm ih => exact ih.step (traffic_of_after hm)

theorem Reachable.traffic (h : s.Reachable) : s.traffic.Reachable :=
  h.imp fun _ h => h.imp fun _ h => h.traffic

theorem Reachable.leads (h : s.Reachable) (k : s.Leads t) : t.Reachable :=
  h.imp fun _ h => h.imp fun _ h => h.trans k

/-- **The register takes no part**: every traffic that can come about is that of a register. -/
theorem exists_traffic {a : Traffic} (h : a.Reachable) :
    ∃ s : Register, s.Reachable ∧ s.traffic = a := by
  obtain ⟨supply, print, h⟩ := h
  induction h with
  | refl => exact ⟨start supply print, ⟨supply, print, .refl _⟩, rfl⟩
  | step _ hm ih =>
    obtain ⟨s, hs, rfl⟩ := ih
    refine ⟨_, hs.leads (.step (.refl s) (by rw [after, hm]; rfl)), ?_⟩
    dsimp only
    split <;> rfl

/-- **The rule of invariants**, from a given register on. -/
theorem Leads.invariant {P : Register → Prop} (h : Leads s t) (start : P s)
    (turn : ∀ t u, s.Leads t → Turn t u → P t → P u) : P t := by
  induction h with
  | refl => exact start
  | step hl hm ih => exact turn _ _ hl (turn_of_after hm) ih

/-- **The rule of invariants**, from the beginning on. -/
theorem Reachable.invariant {P : Register → Prop} (h : s.Reachable)
    (start : ∀ supply print, P (start supply print))
    (turn : ∀ t u, t.Reachable → Turn t u → P t → P u) : P s := by
  obtain ⟨supply, print, h⟩ := h
  exact h.invariant (start supply print) fun t u hl ht hp => turn t u ⟨supply, print, hl⟩ ht hp

/-- What some moves lead to is reached. -/
theorem leads_of_run {moves : List Move} (h : s.run moves = some t) : Leads s t :=
  keeps_of_foldlM h (.refl s) fun _ _ _ hl hm => hl.step hm

theorem reachable_of_run {supply : Identifier.Supply} {print : Amqp.Value → String}
    {moves : List Move} (h : run (start supply print) moves = some s) : s.Reachable :=
  ⟨supply, print, leads_of_run h⟩

/-! ## Notes -/

theorem filter_toList_eq_nil {α : Type} {x : Option α} {p : α → Bool}
    (h : ∀ y, x = some y → p y = false) : x.toList.filter p = [] := by
  cases x with
  | none => rfl
  | some y => exact List.filter_cons_of_neg (Bool.eq_false_iff.mp (h y rfl))

section Notes

variable (s : Register) (i : Nat) (c : Call) (a : Traffic) (r : Nat)

theorem openedFor_note : (s.note i c a).openedFor r = s.openedFor r ++
    ((c.opening? s.traffic.client).toList.filter (·.receiver = r)).map (·.link) := by
  rw [openedFor, note, List.filter_append, List.map_append]
  rfl

theorem closersOf_note : (s.note i c a).closersOf r = s.closersOf r ++
    ((c.closing? s.traffic.client i).toList.filter (·.receiver = r)).map (·.call) := by
  rw [closersOf, note, List.filter_append, List.map_append]
  rfl

theorem disposalsOf_note : (s.note i c a).disposalsOf r = s.disposalsOf r ++
    (c.disposal? s.traffic.client i).toList.filter (·.receiver = r) :=
  List.filter_append ..

variable {r}

theorem openedFor_note_of_ne (h : ∀ o, c.opening? s.traffic.client = some o → o.receiver ≠ r) :
    (s.note i c a).openedFor r = s.openedFor r := by
  rw [openedFor_note, filter_toList_eq_nil fun o ho => decide_eq_false (h o ho)]
  exact List.append_nil _

theorem closersOf_note_of_ne (h : c.matter ≠ .closing r) :
    (s.note i c a).closersOf r = s.closersOf r := by
  rw [closersOf_note, filter_toList_eq_nil fun x hx => decide_eq_false ?_]
  · exact List.append_nil _
  · rintro rfl
    exact h (Call.matter_of_closing hx)

theorem disposalsOf_note_of_ne (h : c.matter ≠ .closing r) :
    (s.note i c a).disposalsOf r = s.disposalsOf r := by
  rw [disposalsOf_note, filter_toList_eq_nil fun d hd => decide_eq_false ?_]
  · exact List.append_nil _
  · rintro rfl
    exact h (Call.matter_of_disposal hd)

end Notes

/-! ## What the other side has seen -/

/-- The register agrees with the other side. -/
structure Agrees (s : Register) : Prop where
  /-- Every link was opened for a receiver. -/
  openings : s.openings.map (·.link) = List.range s.traffic.client.network.links.length
  disposals : s.disposals.map (·.link) = s.traffic.client.disposed

theorem Agrees.turn (h : s.Agrees) (ht : Turn s t) : t.Agrees := by
  cases ht with
  | advances i q c hi hr ho =>
    have hseen := c.registers s.traffic.now s.traffic.client i
    refine ⟨?_, ?_⟩
    · change (s.openings ++ _).map _ = List.range (c.step _ _).state.network.links.length
      rw [List.map_append, h.openings, hseen.links]
      cases hopen : c.opening? s.traffic.client with
      | none => exact List.append_nil _
      | some o =>
        change _ ++ [o.link] = List.range (_ + 1)
        rw [List.range_succ, (Call.opening_cases hopen).1]
    · change (s.disposals ++ _).map _ = (c.step _ _).state.disposed
      rw [List.map_append, h.disposals, hseen.disposed]
  | passes m t ha =>
    refine ⟨?_, ?_⟩
    · rw [ha.spares.links]
      exact h.openings
    · rw [ha.spares.disposed, List.map_nil, List.append_nil]
      exact h.disposals

/-- **What the register says is what the other side has seen.** -/
theorem Reachable.agrees (h : s.Reachable) : s.Agrees :=
  h.invariant (fun _ _ => ⟨rfl, rfl⟩) fun _ _ _ ht ha => ha.turn ht

/-! ## Whoever closes a receiver -/

/-- Whoever is about to take the lanes of a receiver off the list, or is past that, has marked
it; a close that has not marked its receiver does nothing. -/
structure Orderly (s : Register) : Prop where
  closing : ∀ (i : Nat) (q : Demand) (c : Close),
    s.traffic.calls[i]? = some ⟨q, .on (.closing c)⟩ → c.point ≠ .marking →
      i ∈ s.closersOf c.receiver
  closed : ∀ (i r : Nat) (result : Except BusError Unit),
    s.traffic.calls[i]? = some ⟨.close r, .done (.closed result)⟩ →
      i ∈ s.closersOf r ∨ result = .ok ()

/-- A close is in the register after its step, unless it finds its receiver closed. -/
theorem Orderly.mem_note (h : s.Orderly) {i : Nat} {q : Demand} {c : Close}
    (hi : s.traffic.calls[i]? = some ⟨q, .on (.closing c)⟩) (a : Traffic) :
    i ∈ (s.note i (.closing c) a).closersOf c.receiver ∨
      (c.step s.traffic.client).progress = .done (.ok ()) := by
  rw [closersOf_note]
  by_cases hm : c.point = .marking
  · cases hr : (s.traffic.client.receiver c.receiver).closed with
    | true => exact .inr (by rw [Close.step_of_closed hm hr])
    | false =>
      refine .inl (List.mem_append_right _ ?_)
      simp [Call.closing?, hm, hr]
  · exact .inl (List.mem_append_left _ (h.closing i q c hi hm))

theorem Orderly.turn (h : s.Orderly) (hs : s.traffic.Sound) (hd : s.traffic.Demanded)
    (ht : Turn s t) : t.Orderly := by
  cases ht with
  | advances i q c hi hr ho =>
    have hkept {j r : Nat} (hj : j ∈ s.closersOf r) :
        j ∈ (s.note i c (s.traffic.advance i q c)).closersOf r := by
      rw [closersOf_note]
      exact List.mem_append_left _ hj
    have hmatter : c.matter = q.matter := hd.calls i _ hi
    have hcovers := (c.deed s.traffic.now (hs.fits i q c hi).known).covers
    refine ⟨fun j q' k hj hk => ?_, fun j r result hj => ?_⟩
    · obtain ⟨-, hj⟩ | ⟨rfl, hx⟩ := Traffic.entry_of_set hj
      · exact hkept (h.closing j q' k hj hk)
      · injection hx with _ hp
        rw [← hp] at hcovers
        obtain ⟨c, rfl, hreceiver⟩ := Call.eq_closing hcovers.symm
        rw [← hreceiver]
        refine (h.mem_note hi _).resolve_right fun hdone => ?_
        rw [Call.step, Step.map, hdone] at hp
        cases hp
    · obtain ⟨-, hj⟩ | ⟨rfl, hx⟩ := Traffic.entry_of_set hj
      · exact (h.closed j r result hj).imp_left hkept
      · injection hx with hq hp
        subst hq
        obtain ⟨c, rfl, hreceiver⟩ := Call.eq_closing hmatter
        rw [← hreceiver]
        refine (h.mem_note hi _).imp_right fun hdone => ?_
        rw [Call.step, Step.map, hdone] at hp
        cases hp
        rfl
  | passes m t ha =>
    refine ⟨fun i q c hi hc => ?_, fun i r result hi => ?_⟩
    · obtain hi | ⟨-, -, hi⟩ | ⟨k, -, o, hi, -⟩ := ha.entries i _ hi
      · exact h.closing i q c hi hc
      · cases q <;> cases hi
        exact (hc rfl).elim
      · cases hi
    · obtain hi | ⟨-, -, hi⟩ | ⟨k, -, o, hi, ho⟩ := ha.entries i _ hi
      · exact h.closed i r result hi
      · cases hi
      · cases hi
        obtain ho | ⟨-, e, ho⟩ := ho <;> cases ho

/-- **Every close is in the register, or does nothing**, in every register that can come
about. -/
theorem Reachable.orderly (h : s.Reachable) : s.Orderly :=
  h.invariant (fun _ _ => ⟨fun i _ _ hi => (Traffic.calls_start i _ hi).elim,
    fun i _ _ hi => (Traffic.calls_start i _ hi).elim⟩)
    fun _ _ hl ht ho => ho.turn hl.traffic.sound hl.traffic.demanded ht

end Register

end PeekLock.Remote
