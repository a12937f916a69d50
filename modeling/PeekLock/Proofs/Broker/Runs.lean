import PeekLock.Broker.Traffic

/-!
# PeekLock.Proofs.Broker.Runs

Reasoning about every order of calls on the in-memory bus.

`after_cases` says what a move can be.  From it comes the rule that all
statements about runs go through (`Leads.invariant`): what holds at
the beginning, and is kept by each kind of move, holds always.
-/

namespace PeekLock.Broker.Traffic

/-- What a move can be. -/
theorem after_cases {s t : Traffic} {m : Move} (h : s.after m = some t) :
    (∃ q, m = .begin q ∧ (∀ r, q.receiver? = some r → r ∈ s.receivers) ∧ t = s.accept q) ∨
    (∃ i began c, m = .advance i ∧ s.calls[i]? = some ⟨began, .on c⟩ ∧
      c.isReady s.now s.broker = true ∧ t = s.advance i began c) ∨
    (∃ i began c, m = .drop i ∧ s.calls[i]? = some ⟨began, .on (.receiving c)⟩ ∧
      t = s.dropReceive i began c) ∨
    (∃ ms, m = .wait ms ∧ t = s.pass ms) ∨
    (∃ locks, m = .rearrange locks ∧ locks.Perm s.broker.locks ∧ t = s.rearrange locks) := by
  cases m with
  | begin q =>
    simp only [after] at h
    split at h
    · next hq =>
      refine .inl ⟨q, rfl, fun r hr => ?_, (Option.some.inj h).symm⟩
      rw [hr, Option.all_some, decide_eq_true_eq] at hq
      exact hq
    · contradiction
  | advance i =>
    simp only [after] at h
    split at h
    · next began c hi =>
      split at h
      · next hr => exact .inr (.inl ⟨i, began, c, rfl, hi, hr, (Option.some.inj h).symm⟩)
      · contradiction
    · contradiction
  | drop i =>
    simp only [after] at h
    split at h
    · next began c hi => exact .inr (.inr (.inl ⟨i, began, c, rfl, hi, (Option.some.inj h).symm⟩))
    · contradiction
  | wait ms => exact .inr (.inr (.inr (.inl ⟨ms, rfl, (Option.some.inj h).symm⟩)))
  | rearrange locks =>
    simp only [after] at h
    split at h
    · next hp =>
      exact .inr (.inr (.inr (.inr
        ⟨locks, rfl, List.isPerm_iff.mp hp, (Option.some.inj h).symm⟩)))
    · contradiction

/-- What a call that takes its next step leads to. -/
theorem eq_advance {s t : Traffic} {i began : Nat} {c : Call}
    (hi : s.calls[i]? = some ⟨began, .on c⟩) (h : s.after (.advance i) = some t) :
    c.isReady s.now s.broker = true ∧ t = s.advance i began c := by
  simp only [after, hi] at h
  split at h
  · next hr => exact ⟨hr, (Option.some.inj h).symm⟩
  · contradiction

/-- A call that is ready can take its next step. -/
theorem after_advance {s : Traffic} {i began : Nat} {c : Call}
    (hi : s.calls[i]? = some ⟨began, .on c⟩) (hr : c.isReady s.now s.broker = true) :
    s.after (.advance i) = some (s.advance i began c) := by
  simp only [after, hi, hr, if_true]

/-- Only a receive goes on as a receive. -/
theorem receiving_of_step {now : Nat} {b : Broker} {c : Call} {c' : Receive}
    (h : (c.step now b).progress = .on (.receiving c')) :
    ∃ k, c = .receiving k ∧ (k.step now b).progress = .on c' := by
  cases c with
  | receiving k =>
    obtain ⟨c', hp, hc⟩ := Progress.map_eq_on h
    cases hc
    exact ⟨k, rfl, hp⟩
  | subscribing topic name => contradiction
  | arranging faults => contradiction
  | _ =>
    obtain ⟨_, -, hc⟩ := Progress.map_eq_on h
    cases hc

theorem getElem?_advance {s : Traffic} {i began : Nat} {c : Call}
    (hi : s.calls[i]? = some ⟨began, .on c⟩) :
    (s.advance i began c).calls[i]? = some ⟨began, (c.step s.now s.broker).progress⟩ := by
  obtain ⟨hlt, -⟩ := List.getElem?_eq_some_iff.mp hi
  exact List.getElem?_set_self hlt

theorem getElem?_advance_ne {s : Traffic} {i j began : Nat} {c : Call} (hij : i ≠ j) :
    (s.advance i began c).calls[j]? = s.calls[j]? :=
  List.getElem?_set_ne hij

/-- A call on its way after another was begun was on its way before, or it is that one. -/
theorem call_of_accept {s : Traffic} {q : Request} {j began : Nat} {c : Call}
    (h : (s.accept q).calls[j]? = some ⟨began, .on c⟩) :
    s.calls[j]? = some ⟨began, .on c⟩ ∨ began = s.now ∧ c = q.call := by
  rw [accept, List.getElem?_append] at h
  split at h
  · exact .inl h
  · obtain ⟨hlt, hx⟩ := List.getElem?_eq_some_iff.mp h
    rw [List.getElem_singleton] at hx
    cases hx
    exact .inr ⟨rfl, rfl⟩

/-- A call on its way after a step was on its way before, or it took the step. -/
theorem call_of_advance {s : Traffic} {i j began began' : Nat} {c k : Call}
    (hi : s.calls[i]? = some ⟨began, .on c⟩)
    (h : (s.advance i began c).calls[j]? = some ⟨began', .on k⟩) :
    i ≠ j ∧ s.calls[j]? = some ⟨began', .on k⟩ ∨
      i = j ∧ began' = began ∧ (c.step s.now s.broker).progress = .on k := by
  by_cases hij : i = j
  · subst hij
    rw [getElem?_advance hi] at h
    injection h with h
    injection h with hbegan hp
    exact .inr ⟨rfl, hbegan.symm, hp⟩
  · rw [getElem?_advance_ne hij] at h
    exact .inl ⟨hij, h⟩

/-- A call on its way after a receive was dropped was on its way before. -/
theorem call_of_dropReceive {s : Traffic} {i j began began' : Nat} {c : Receive} {k : Call}
    (hi : s.calls[i]? = some ⟨began, .on (.receiving c)⟩)
    (h : (s.dropReceive i began c).calls[j]? = some ⟨began', .on k⟩) :
    s.calls[j]? = some ⟨began', .on k⟩ := by
  by_cases hij : i = j
  · subst hij
    obtain ⟨hlt, -⟩ := List.getElem?_eq_some_iff.mp hi
    rw [dropReceive, List.getElem?_set_self hlt] at h
    cases h
  · rw [dropReceive, List.getElem?_set_ne hij] at h
    exact h

/-- A receive on its way after the beginning of a call was on its way before, or it has
just begun. -/
theorem receiving_of_accept {s : Traffic} {q : Request} {j began : Nat} {c : Receive}
    (h : (s.accept q).calls[j]? = some ⟨began, .on (.receiving c)⟩) :
    s.calls[j]? = some ⟨began, .on (.receiving c)⟩ ∨ began = s.now ∧ c.point = .arriving := by
  refine (call_of_accept h).imp_right fun ⟨hbegan, hq⟩ => ⟨hbegan, ?_⟩
  cases q <;> cases hq
  rfl

/-- A receive on its way after a step was on its way before, or it took the step. -/
theorem receiving_of_advance {s : Traffic} {i j began began' : Nat} {c : Call} {k : Receive}
    (hi : s.calls[i]? = some ⟨began, .on c⟩)
    (h : (s.advance i began c).calls[j]? = some ⟨began', .on (.receiving k)⟩) :
    s.calls[j]? = some ⟨began', .on (.receiving k)⟩ ∨
      began' = began ∧ ∃ k', c = .receiving k' ∧ (k'.step s.now s.broker).progress = .on k := by
  obtain ⟨-, hj⟩ | ⟨-, hbegan, hp⟩ := call_of_advance hi h
  · exact .inl hj
  · exact .inr ⟨hbegan, receiving_of_step hp⟩

/-- A receive on its way after another was dropped was on its way before. -/
theorem receiving_of_dropReceive {s : Traffic} {i j began began' : Nat} {c k : Receive}
    (hi : s.calls[i]? = some ⟨began, .on (.receiving c)⟩)
    (h : (s.dropReceive i began c).calls[j]? = some ⟨began', .on (.receiving k)⟩) :
    s.calls[j]? = some ⟨began', .on (.receiving k)⟩ :=
  call_of_dropReceive hi h

/-- A move that ends a call, and does not drop it, is its own step. -/
theorem advance_of_done {s t : Traffic} {m : Move} {i began : Nat} {c : Call} {o : Outcome}
    (hi : s.calls[i]? = some ⟨began, .on c⟩) (hm : s.after m = some t)
    (ht : t.calls[i]? = some ⟨began, .done o⟩) (ho : o ≠ .dropped) :
    c.isReady s.now s.broker = true ∧ t = s.advance i began c ∧
      (c.step s.now s.broker).progress = .done o := by
  obtain ⟨hlt, -⟩ := List.getElem?_eq_some_iff.mp hi
  obtain ⟨q, -, -, rfl⟩ | ⟨j, began', k, -, hj, hr, rfl⟩ |
    ⟨j, began', k, -, hj, rfl⟩ | ⟨ms, -, rfl⟩ | ⟨locks, -, -, rfl⟩ := after_cases hm
  · rw [accept, List.getElem?_append_left hlt, hi] at ht
    cases ht
  · by_cases hij : j = i
    · subst hij
      rw [hi] at hj
      cases hj
      rw [getElem?_advance hi] at ht
      injection ht with ht
      injection ht with _ hp
      exact ⟨hr, rfl, hp⟩
    · rw [getElem?_advance_ne hij, hi] at ht
      cases ht
  · by_cases hij : j = i
    · subst hij
      rw [dropReceive, List.getElem?_set_self hlt] at ht
      cases ht
      exact (ho rfl).elim
    · rw [dropReceive, List.getElem?_set_ne hij, hi] at ht
      cases ht
  · rw [pass, hi] at ht
    cases ht
  · rw [rearrange, hi] at ht
    cases ht

/-- A move that ends a receive is its own step. -/
theorem advance_of_received {s t : Traffic} {m : Move} {i began : Nat} {c : Receive}
    {result : Receive.Result} (hi : s.calls[i]? = some ⟨began, .on (.receiving c)⟩)
    (hm : s.after m = some t) (ht : t.calls[i]? = some ⟨began, .done (.received result)⟩) :
    c.isReady s.now s.broker = true ∧ t = s.advance i began (.receiving c) ∧
      (c.step s.now s.broker).progress = .done result := by
  obtain ⟨hr, rfl, hp⟩ := advance_of_done hi hm ht nofun
  obtain ⟨a, ha, hres⟩ := Progress.map_eq_done hp
  cases hres
  exact ⟨hr, rfl, ha⟩

/-- What a state leads to, it leads to step by step. -/
theorem Leads.trans {s t u : Traffic} (h : Leads s t) (k : Leads t u) : Leads s u := by
  induction k with
  | refl => exact h
  | step _ hm ih => exact ih.step hm

/-- What can come about leads to what can come about. -/
theorem Reachable.leads {s t : Traffic} (h : s.Reachable) (k : s.Leads t) : t.Reachable :=
  h.imp fun _ h => h.trans k

theorem Reachable.step {s t : Traffic} {m : Move} (h : s.Reachable) (hm : s.after m = some t) :
    t.Reachable :=
  h.imp fun _ h => h.step hm

/-- **The rule of invariants**, from a given traffic on. -/
theorem Leads.invariant {P : Traffic → Prop} {s t : Traffic} (h : Leads s t) (start : P s)
    (accept : ∀ s q, (∀ r, q.receiver? = some r → r ∈ s.receivers) → P s → P (s.accept q))
    (advance : ∀ s i began c, s.calls[i]? = some ⟨began, .on c⟩ →
      c.isReady s.now s.broker = true → P s → P (s.advance i began c))
    (drop : ∀ s i began c, s.calls[i]? = some ⟨began, .on (.receiving c)⟩ → P s →
      P (s.dropReceive i began c))
    (pass : ∀ s ms, P s → P (s.pass ms))
    (rearrange : ∀ s locks, locks.Perm s.broker.locks → P s → P (s.rearrange locks)) :
    P t := by
  induction h with
  | refl => exact start
  | step _ hm ih =>
    obtain ⟨q, -, hr, rfl⟩ | ⟨i, began, c, -, hi, hr, rfl⟩ |
      ⟨i, began, c, -, hi, rfl⟩ | ⟨ms, -, rfl⟩ | ⟨locks, -, hp, rfl⟩ := after_cases hm
    · exact accept _ q hr ih
    · exact advance _ i began c hi hr ih
    · exact drop _ i began c hi ih
    · exact pass _ ms ih
    · exact rearrange _ locks hp ih

/-- What each step of a call keeps holds of it in every later traffic. -/
theorem Leads.entry_invariant {P : Entry → Prop} {s t : Traffic} (h : s.Leads t) {i : Nat}
    {x : Entry} (hi : s.calls[i]? = some x) (hx : P x)
    (step : ∀ now b began c, P ⟨began, .on c⟩ → P ⟨began, (c.step now b).progress⟩)
    (drop : ∀ began c, P ⟨began, .on (.receiving c)⟩ → P ⟨began, .done .dropped⟩) :
    ∃ y, t.calls[i]? = some y ∧ P y := by
  refine h.invariant (P := fun t => ∃ y, t.calls[i]? = some y ∧ P y) ⟨x, hi, hx⟩ ?_ ?_ ?_ ?_ ?_
  · rintro t q - ⟨y, hy, hp⟩
    obtain ⟨hlt, -⟩ := List.getElem?_eq_some_iff.mp hy
    rw [accept, List.getElem?_append_left hlt]
    exact ⟨y, hy, hp⟩
  · rintro t j began c hj - ⟨y, hy, hp⟩
    by_cases hji : j = i
    · subst hji
      rw [hj] at hy
      cases hy
      exact ⟨_, getElem?_advance hj, step _ _ _ _ hp⟩
    · rw [getElem?_advance_ne hji]
      exact ⟨y, hy, hp⟩
  · rintro t j began c hj ⟨y, hy, hp⟩
    by_cases hji : j = i
    · subst hji
      rw [hj] at hy
      cases hy
      obtain ⟨hlt, -⟩ := List.getElem?_eq_some_iff.mp hj
      rw [dropReceive, List.getElem?_set_self hlt]
      exact ⟨_, rfl, drop _ _ hp⟩
    · rw [dropReceive, List.getElem?_set_ne hji]
      exact ⟨y, hy, hp⟩
  · exact fun t ms ih => ih
  · exact fun t locks _ ih => ih

/-- What calls begin with and each step keeps holds of all calls on their way. -/
theorem Leads.every_call {P : Call → Prop} {s t : Traffic} (h : s.Leads t)
    (hs : ∀ (j began : Nat) (c : Call), s.calls[j]? = some ⟨began, .on c⟩ → P c)
    (start : ∀ q : Request, P q.call)
    (step : ∀ (now : Nat) (b : Broker) (c c' : Call), P c →
      (c.step now b).progress = .on c' → P c') :
    ∀ (j began : Nat) (c : Call), t.calls[j]? = some ⟨began, .on c⟩ → P c := by
  refine h.invariant
    (P := fun t => ∀ (j began : Nat) (c : Call), t.calls[j]? = some ⟨began, .on c⟩ → P c)
    hs ?_ ?_ ?_ ?_ ?_
  · intro t q _ ih j began c hj
    obtain hj | ⟨-, rfl⟩ := call_of_accept hj
    · exact ih j began c hj
    · exact start q
  · intro t i began c hi _ ih j began' k hj
    obtain ⟨-, hj⟩ | ⟨-, -, hp⟩ := call_of_advance hi hj
    · exact ih j began' k hj
    · exact step _ _ c k (ih i began c hi) hp
  · exact fun t i began c hi ih j began' k hj => ih j began' k (call_of_dropReceive hi hj)
  · exact fun t ms ih => ih
  · exact fun t locks _ ih => ih

/-- What a call has ended with it has ended with for good. -/
theorem Leads.getElem?_done {s t : Traffic} (h : s.Leads t) {i began : Nat} {o : Outcome}
    (hi : s.calls[i]? = some ⟨began, .done o⟩) : t.calls[i]? = some ⟨began, .done o⟩ := by
  obtain ⟨y, hy, rfl⟩ := h.entry_invariant (P := (· = ⟨began, .done o⟩)) hi rfl
    (fun _ _ _ _ hp => by cases hp) (fun _ _ hp => by cases hp)
  exact hy

/-- A receiver that was created is there for good. -/
theorem Leads.mem_receivers {s t : Traffic} (h : s.Leads t) {r : Receiver}
    (hr : r ∈ s.receivers) : r ∈ t.receivers := by
  obtain ⟨x, hx, hc⟩ := List.mem_filterMap.mp hr
  obtain ⟨i, hi⟩ := List.mem_iff_getElem?.mp hx
  unfold Entry.created? at hc
  split at hc
  · exact List.mem_filterMap.mpr ⟨_, List.mem_of_getElem? (h.getElem?_done hi), hc⟩
  · contradiction

/-- What some moves lead to is reached. -/
theorem leads_of_run {s t : Traffic} {moves : List Move} (h : s.run moves = some t) :
    Leads s t :=
  keeps_of_foldlM h (.refl s) fun _ _ _ hl hm => hl.step hm

theorem reachable_of_run {s : Traffic} {supply : Identifier.Supply} {moves : List Move}
    (h : run (start supply) moves = some s) : s.Reachable :=
  ⟨supply, leads_of_run h⟩

/-- What is noted of some moves, one after the other. -/
def notesOver {α : Type} (note : Traffic → Move → List α) (s : Traffic) : List Move → List α
  | [] => []
  | m :: rest => note s m ++ (s.after m).elim [] (notesOver note · rest)

/-- What every move keeps, of a traffic and of what was noted so far, a run keeps. -/
theorem keeps_of_run {α : Type} {note : Traffic → Move → List α} {P : Traffic → List α → Prop}
    {s t : Traffic} {moves : List Move} {noted : List α} (h : s.run moves = some t)
    (start : P s noted)
    (move : ∀ s noted m t, P s noted → s.after m = some t → P t (noted ++ note s m)) :
    P t (noted ++ notesOver note s moves) := by
  induction moves generalizing s noted with
  | nil =>
    simp only [Traffic.run, List.foldlM_nil] at h
    injection h with h
    rwa [← h, notesOver, List.append_nil]
  | cons m rest ih =>
    simp only [Traffic.run, List.foldlM_cons] at h
    cases hm : s.after m with
    | none => rw [hm] at h; contradiction
    | some u =>
      rw [hm] at h
      rw [notesOver, hm, Option.elim_some, ← List.append_assoc]
      exact ih h (move s noted m u start hm)

end PeekLock.Broker.Traffic
