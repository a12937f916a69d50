import PeekLock.Consumer.Life
import PeekLock.Proofs.Counting

/-!
# PeekLock.Proofs.Consumer.Turns

Reasoning about every order of starts and stops of one consumer.

`Turn` lists once what a step of a call can be, with what it asks for and
what it changes; no later proof opens the calls again.  From it comes the
rule that all statements about lives go through (`Leads.invariant`).
-/

namespace PeekLock.Consumer

/-! ## Crews -/

theorem crew_zero {c : Consumer} {x : Crew} (h : c.crews = [x]) : c.crew 0 = x := by
  rw [crew, h]
  rfl

theorem setPool_zero {c : Consumer} {x : Crew} (h : c.crews = [x]) (pool : Pool) :
    c.setPool 0 pool = { c with crews := [{ x with pool := pool }] } := by
  rw [setPool, crew_zero h, h]
  rfl

theorem length_setPool (c : Consumer) (n : Nat) (pool : Pool) :
    (c.setPool n pool).crews.length = c.crews.length :=
  List.length_set

/-- Putting back the pool of a crew changes nothing. -/
theorem setPool_crew (c : Consumer) (n : Nat) : c.setPool n (c.crew n).pool = c := by
  have hset : c.crews.set n (c.crew n) = c.crews := by
    by_cases hn : n < c.crews.length
    · have hcrew : c.crew n = c.crews[n] := by
        rw [crew, List.getD_eq_getElem?_getD, List.getElem?_eq_getElem hn, Option.getD_some]
      rw [hcrew, List.set_getElem_self]
    · exact List.set_eq_of_length_le (Nat.le_of_not_lt hn)
  rw [setPool, hset]

/-- Workers that are started one after the other are numbered so. -/
theorem hire_eq (n : Nat) (p : Pool) :
    hire n p =
      { p with
        handles := p.handles ++ List.range' p.spawned n
        spawned := p.spawned + n
        active := p.active + n } := by
  induction n generalizing p with
  | zero => rw [hire, List.range'_zero, List.append_nil, Nat.add_zero, Nat.add_zero]
  | succ n ih =>
    rw [hire, ih]
    simp only [Pool.spawn, List.range'_succ, List.append_assoc, List.singleton_append,
      Nat.add_assoc, Nat.add_comm 1]

/-- The workers of a new crew. -/
theorem handles_hire (n : Nat) : (hire n {}).handles = List.range n := by
  rw [hire_eq, List.range_eq_range', List.nil_append]

theorem spawned_hire (n : Nat) : (hire n {}).spawned = n := by
  rw [hire_eq, Nat.zero_add]

/-! ## What a step can be -/

/-- A step of a call: what it asks for, the consumer it leaves behind, and how far the
call has come. -/
inductive Turn (now : Nat) (c : Consumer) : Call → Consumer → Progress Call Outcome → Prop where
  /-- A start takes the slot. -/
  | enters (caller : String) (h : c.slotHeld = false) :
    Turn now c (.starting (.locking caller)) { c with slotHeld := true }
      (.on (.starting (.switching caller)))
  | switches (caller : String) (h : c.phase = .created) :
    Turn now c (.starting (.switching caller)) { c with phase := .running }
      (.on (.starting (.spawning caller)))
  | isTooLate (caller : String) (h : c.phase ≠ .created) :
    Turn now c (.starting (.switching caller)) c (.on (.starting .refusing))
  /-- A start puts a crew into the slot and leaves it. -/
  | hires (caller : String) :
    Turn now c (.starting (.spawning caller))
      { c with
        crews := c.crews ++ [⟨hire c.settings.workers {}, caller⟩]
        slot := some c.crews.length
        slotHeld := false }
      (.done (.started (.ok c.crews.length)))
  | isRefused :
    Turn now c (.starting .refusing) { c with slotHeld := false }
      (.done (.started (.error (Start.refusal c.phase))))
  | claimsRunning (d : Option Duration) (h : c.phase = .running) :
    Turn now c (.stopping (.claimingRunning d)) { c with phase := .stopping }
      (.on (.stopping (.locking d)))
  | missesRunning (d : Option Duration) (h : c.phase ≠ .running) :
    Turn now c (.stopping (.claimingRunning d)) c (.on (.stopping (.claimingCreated d)))
  | claimsCreated (d : Option Duration) (h : c.phase = .created) :
    Turn now c (.stopping (.claimingCreated d)) { c with phase := .stopping }
      (.on (.stopping (.locking d)))
  | missesCreated (d : Option Duration) (h : c.phase ≠ .created) :
    Turn now c (.stopping (.claimingCreated d)) c (.on (.stopping .ignoring))
  | ignores : Turn now c (.stopping .ignoring) c (.done (.stopped (.ok ())))
  /-- A stop finds no crew in the slot. -/
  | findsNone (d : Option Duration) (hh : c.slotHeld = false) (h : c.slot = none) :
    Turn now c (.stopping (.locking d)) { c with slot := none } (.on (.stopping .closing))
  /-- A stop takes the crew out of the slot. -/
  | takes (d : Option Duration) (n : Nat) (hh : c.slotHeld = false) (h : c.slot = some n) :
    Turn now c (.stopping (.locking d)) { c with slot := none }
      (.on (.stopping (.draining n (Stop.wait c d) (.stopping (Stop.wait c d).ticks))))
  /-- A stop cancels the scope of its crew. -/
  | cancels (n : Nat) (wait : Duration) (ticks : Nat) :
    Turn now c (.stopping (.draining n wait (.stopping ticks)))
      { c with
        crews := c.crews.set n
          { c.crew n with pool := { (c.crew n).pool with stopped := true, handles := [] } } }
      (.on (.stopping (.draining n wait (.joining (c.crew n).pool.handles (now + ticks)))))
  /-- A stop has waited for its crew. -/
  | drains (n : Nat) (wait : Duration) (workers : List Nat) (due : Nat)
    (h : (c.crew n).pool.haveEnded workers = true ∨ due ≤ now) :
    Turn now c (.stopping (.draining n wait (.joining workers due))) c (.on (.stopping .closing))
  /-- The receiver's close returns. -/
  | isAnswered (closed : Except BusError Unit) :
    Turn now c (.stopping .closing) c (.on (.stopping (.storing closed)))
  | stores (closed : Except BusError Unit) :
    Turn now c (.stopping (.storing closed)) { c with phase := .stopped } (.done (.stopped closed))

/-- A step of a call that is ready is one of those. -/
theorem turn_of_step {now : Nat} {c : Consumer} {k : Call} (h : k.isReady now c = true) :
    Turn now c k (k.step now c).state (k.step now c).progress := by
  cases k with
  | starting s =>
    cases s with
    | locking caller => exact .enters caller (by simpa [Call.isReady, Start.isReady] using h)
    | switching caller =>
      by_cases hc : c.phase = .created
      · simp only [Call.step, Start.step, if_pos hc]
        exact .switches caller hc
      · simp only [Call.step, Start.step, if_neg hc]
        exact .isTooLate caller hc
    | spawning caller => exact .hires caller
    | refusing => exact .isRefused
  | stopping s =>
    cases s with
    | claimingRunning d =>
      by_cases hc : c.phase = .running
      · simp only [Call.step, Stop.step, if_pos hc]
        exact .claimsRunning d hc
      · simp only [Call.step, Stop.step, if_neg hc]
        exact .missesRunning d hc
    | claimingCreated d =>
      by_cases hc : c.phase = .created
      · simp only [Call.step, Stop.step, if_pos hc]
        exact .claimsCreated d hc
      · simp only [Call.step, Stop.step, if_neg hc]
        exact .missesCreated d hc
    | ignoring => exact .ignores
    | locking d =>
      have hh : c.slotHeld = false := by simpa [Call.isReady, Stop.isReady] using h
      cases hs : c.slot with
      | none =>
        simp only [Call.step, Stop.step, hs]
        exact .findsNone d hh hs
      | some n =>
        simp only [Call.step, Stop.step, hs]
        exact .takes d n hh hs
    | draining n wait s =>
      cases s with
      | stopping ticks => exact .cancels n wait ticks
      | joining workers due =>
        have hready : (c.crew n).pool.haveEnded workers = true ∨ due ≤ now := by
          simpa [Call.isReady, Stop.isReady, Pool.Shutdown.isReady] using h
        by_cases he : (c.crew n).pool.haveEnded workers = true
        · simp only [Call.step, Stop.step, Pool.Shutdown.step, if_pos he, setPool_crew]
          exact .drains n wait workers due hready
        · simp only [Call.step, Stop.step, Pool.Shutdown.step, if_neg he, setPool_crew]
          exact .drains n wait workers due hready
    | closing => contradiction
    | storing closed => cases closed <;> exact .stores _

/-- The settings never change. -/
theorem Turn.settings {now : Nat} {c c' : Consumer} {k : Call} {p : Progress Call Outcome}
    (h : Turn now c k c' p) : c'.settings = c.settings := by
  cases h <;> rfl

/-- The phase never goes back. -/
theorem Turn.rank_le {now : Nat} {c c' : Consumer} {k : Call} {p : Progress Call Outcome}
    (h : Turn now c k c' p) : c.phase.rank ≤ c'.phase.rank := by
  cases h with
  | switches _ hc => simp [hc, Phase.rank]
  | claimsRunning _ hc => simp [hc, Phase.rank]
  | claimsCreated _ hc => simp [hc, Phase.rank]
  | stores =>
    show c.phase.rank ≤ 3
    cases c.phase <;> decide
  | _ => exact Nat.le_refl _

theorem Turn.phase_of_stopped {now : Nat} {c c' : Consumer} {k : Call}
    {p : Progress Call Outcome} (h : Turn now c k c' p) (hc : c.phase = .stopped) :
    c'.phase = .stopped := by
  have hr := h.rank_le
  rw [hc] at hr
  revert hr
  cases c'.phase <;> decide

theorem Turn.phase_ne_created {now : Nat} {c c' : Consumer} {k : Call}
    {p : Progress Call Outcome} (h : Turn now c k c' p) (hc : c.phase ≠ .created) :
    c'.phase ≠ .created := by
  have hr := h.rank_le
  revert hr hc
  cases c.phase <;> cases c'.phase <;> decide

namespace Life

/-! ## Moves -/

/-- What a move can be. -/
theorem after_cases {s t : Life} {m : Move} (h : s.after m = some t) :
    (∃ q, m = .begin q ∧ t = s.accept q) ∨
    (∃ i q k c p, s.calls[i]? = some ⟨q, .on k⟩ ∧ Turn s.now s.consumer k c p ∧
      t = s.resume i q c p ∧ (m = .advance i ∧ k ≠ .stopping .closing ∨
        ∃ closed, m = .answer i closed ∧ k = .stopping .closing ∧
          p = .on (.stopping (.storing closed)))) ∨
    (∃ crew worker how, m = .finish crew worker how ∧
      s.consumer.isAtWork crew worker = true ∧ t = s.finish crew worker how) ∨
    (∃ ms, m = .wait ms ∧ t = s.pass ms) := by
  cases m with
  | begin q => exact .inl ⟨q, rfl, (Option.some.inj h).symm⟩
  | advance i =>
    simp only [after] at h
    split at h
    · next q k hi =>
      split at h
      · next hr =>
        have hk : k ≠ .stopping .closing := by
          rintro rfl
          contradiction
        exact .inr (.inl ⟨i, q, k, _, _, hi, turn_of_step hr, (Option.some.inj h).symm,
          .inl ⟨rfl, hk⟩⟩)
      · contradiction
    · contradiction
  | answer i closed =>
    simp only [after] at h
    split at h
    · next q hi =>
      exact .inr (.inl ⟨i, q, _, _, _, hi, .isAnswered closed, (Option.some.inj h).symm,
        .inr ⟨closed, rfl, rfl, rfl⟩⟩)
    · contradiction
  | finish crew worker how =>
    simp only [after] at h
    split at h
    · next hw => exact .inr (.inr (.inl ⟨crew, worker, how, rfl, hw, (Option.some.inj h).symm⟩))
    · contradiction
  | wait ms => exact .inr (.inr (.inr ⟨ms, rfl, (Option.some.inj h).symm⟩))

/-- What a life leads to, it leads to step by step. -/
theorem Leads.trans {s t u : Life} (h : Leads s t) (k : Leads t u) : Leads s u := by
  induction k with
  | refl => exact h
  | step _ hm ih => exact ih.step hm

theorem Reachable.leads {settings : ConsumerSettings} {s t : Life} (h : s.Reachable settings)
    (k : s.Leads t) : t.Reachable settings := by
  obtain ⟨receiver, h⟩ := h
  exact ⟨receiver, h.trans k⟩

/-- **The rule of invariants**, from a given life on. -/
theorem Leads.invariant {P : Life → Prop} {s t : Life} (h : Leads s t) (start : P s)
    (accept : ∀ s q, P s → P (s.accept q))
    (turn : ∀ u i q k c p, s.Leads u → u.calls[i]? = some ⟨q, .on k⟩ →
      Turn u.now u.consumer k c p → P u → P (u.resume i q c p))
    (finish : ∀ s crew worker how, s.consumer.isAtWork crew worker = true → P s →
      P (s.finish crew worker how))
    (pass : ∀ s ms, P s → P (s.pass ms)) : P t := by
  induction h with
  | refl => exact start
  | step hs hm ih =>
    obtain ⟨q, -, rfl⟩ | ⟨i, q, k, c, p, hi, hturn, rfl, -⟩ | ⟨crew, worker, how, -, hw, rfl⟩ |
      ⟨ms, -, rfl⟩ := after_cases hm
    · exact accept _ q ih
    · exact turn _ i q k c p hs hi hturn ih
    · exact finish _ crew worker how hw ih
    · exact pass _ ms ih

/-- What some moves lead to is reached. -/
theorem leads_of_run {s t : Life} {moves : List Move} (h : s.run moves = some t) :
    Leads s t :=
  keeps_of_foldlM h (.refl s) fun _ _ _ hl hm => hl.step hm

/-! ## Entries -/

theorem getElem?_accept {s : Life} {q : Request} {j : Nat} {x : Entry}
    (h : s.calls[j]? = some x) : (s.accept q).calls[j]? = some x := by
  obtain ⟨hlt, -⟩ := List.getElem?_eq_some_iff.mp h
  rw [accept, List.getElem?_append_left hlt]
  exact h

/-- A call that is there after another was begun was there before, or it is that one. -/
theorem entry_of_accept {s : Life} {q : Request} {j : Nat} {x : Entry}
    (h : (s.accept q).calls[j]? = some x) : s.calls[j]? = some x ∨ x = ⟨q, .on q.call⟩ := by
  rw [accept, List.getElem?_append] at h
  split at h
  · exact .inl h
  · obtain ⟨hlt, hx⟩ := List.getElem?_eq_some_iff.mp h
    rw [List.getElem_singleton] at hx
    exact .inr hx.symm

section

variable {s : Life} {i : Nat} {q : Request} {k : Call} {c : Consumer} {p : Progress Call Outcome}

theorem getElem?_resume (hi : s.calls[i]? = some ⟨q, .on k⟩) :
    (s.resume i q c p).calls[i]? = some ⟨q, p⟩ := by
  obtain ⟨hlt, -⟩ := List.getElem?_eq_some_iff.mp hi
  exact List.getElem?_set_self hlt

theorem getElem?_resume_ne {j : Nat} (hij : i ≠ j) :
    (s.resume i q c p).calls[j]? = s.calls[j]? :=
  List.getElem?_set_ne hij

/-- A call that is there after a turn took it, or it was there before. -/
theorem entry_of_resume (hi : s.calls[i]? = some ⟨q, .on k⟩) {j : Nat} {x : Entry}
    (h : (s.resume i q c p).calls[j]? = some x) :
    i = j ∧ x = ⟨q, p⟩ ∨ i ≠ j ∧ s.calls[j]? = some x := by
  by_cases hij : i = j
  · subst hij
    rw [getElem?_resume hi] at h
    exact .inl ⟨rfl, (Option.some.inj h).symm⟩
  · rw [getElem?_resume_ne hij] at h
    exact .inr ⟨hij, h⟩

end

theorem turn_of_advance {s t : Life} {i : Nat} {q : Request} {k : Call}
    (hi : s.calls[i]? = some ⟨q, .on k⟩) (hm : s.after (.advance i) = some t) :
    ∃ c p, Turn s.now s.consumer k c p ∧ t = s.resume i q c p := by
  simp only [after, hi] at hm
  split at hm
  · next hr => exact ⟨_, _, turn_of_step hr, (Option.some.inj hm).symm⟩
  · contradiction

/-- What a move changes in a call is a turn of it. -/
theorem turn_of_after {s t : Life} {m : Move} {i : Nat} (hm : s.after m = some t) {x y : Entry}
    (hs : s.calls[i]? = some x) (ht : t.calls[i]? = some y) (hxy : x ≠ y) :
    ∃ q k c p, x = ⟨q, .on k⟩ ∧ y = ⟨q, p⟩ ∧ Turn s.now s.consumer k c p ∧
      t = s.resume i q c p := by
  obtain ⟨q, -, rfl⟩ | ⟨j, q, k, c, p, hj, hturn, rfl, -⟩ | ⟨crew, worker, how, -, -, rfl⟩ |
    ⟨ms, -, rfl⟩ := after_cases hm
  · rw [getElem?_accept hs] at ht
    exact (hxy (Option.some.inj ht)).elim
  · obtain ⟨rfl, rfl⟩ | ⟨-, ht⟩ := entry_of_resume hj ht
    · rw [hs] at hj
      cases hj
      exact ⟨q, k, c, p, rfl, rfl, hturn, rfl⟩
    · rw [hs] at ht
      exact (hxy (Option.some.inj ht)).elim
  · exact (hxy (Option.some.inj (hs.symm.trans ht))).elim
  · exact (hxy (Option.some.inj (hs.symm.trans ht))).elim

/-- What each turn of a call keeps holds of it in every later life. -/
theorem Leads.entry_invariant {P : Entry → Prop} {s t : Life} (h : s.Leads t) {i : Nat}
    {x : Entry} (hi : s.calls[i]? = some x) (hx : P x)
    (turn : ∀ now q k c c' p, Turn now c k c' p → P ⟨q, .on k⟩ → P ⟨q, p⟩) :
    ∃ y, t.calls[i]? = some y ∧ P y := by
  refine h.invariant (P := fun t => ∃ y, t.calls[i]? = some y ∧ P y) ⟨x, hi, hx⟩ ?_ ?_ ?_ ?_
  · rintro t q ⟨y, hy, hp⟩
    exact ⟨y, getElem?_accept hy, hp⟩
  · rintro t j q k c p - hj hturn ⟨y, hy, hp⟩
    by_cases hji : j = i
    · subst hji
      rw [hj] at hy
      cases hy
      exact ⟨_, getElem?_resume hj, turn _ _ _ _ _ _ hturn hp⟩
    · rw [getElem?_resume_ne hji]
      exact ⟨y, hy, hp⟩
  · exact fun t crew worker how _ ih => ih
  · exact fun t ms ih => ih

/-- What a call has ended with it has ended with for good. -/
theorem Leads.getElem?_done {s t : Life} (h : s.Leads t) {i : Nat} {q : Request} {o : Outcome}
    (hi : s.calls[i]? = some ⟨q, .done o⟩) : t.calls[i]? = some ⟨q, .done o⟩ := by
  obtain ⟨y, hy, rfl⟩ := h.entry_invariant (P := (· = ⟨q, .done o⟩)) hi rfl
    (fun _ _ _ _ _ _ _ hp => by cases hp)
  exact hy

/-- **No way back**: the phase only moves forward. -/
theorem Leads.rank_le {s t : Life} (h : s.Leads t) :
    s.consumer.phase.rank ≤ t.consumer.phase.rank := by
  refine h.invariant (P := fun t => s.consumer.phase.rank ≤ t.consumer.phase.rank)
    (Nat.le_refl _) ?_ ?_ ?_ ?_
  · exact fun t q ih => ih
  · exact fun t i q k c p _ _ hturn ih => Nat.le_trans ih hturn.rank_le
  · exact fun t crew worker how _ ih => ih
  · exact fun t ms ih => ih

theorem Reachable.settings {settings : ConsumerSettings} {s : Life} (h : s.Reachable settings) :
    s.consumer.settings = settings.normalized := by
  obtain ⟨receiver, h⟩ := h
  refine h.invariant (P := fun s => s.consumer.settings = settings.normalized) rfl ?_ ?_ ?_ ?_
  · exact fun t q ih => ih
  · exact fun t i q k c p _ _ hturn ih => hturn.settings.trans ih
  · exact fun t crew worker how _ ih => ih
  · exact fun t ms ih => ih

end Life

end PeekLock.Consumer
