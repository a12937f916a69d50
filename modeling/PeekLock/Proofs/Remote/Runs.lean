import PeekLock.Remote.Traffic

/-!
# PeekLock.Proofs.Remote.Runs

Reasoning about every order of calls on the remote bus.

`Turn` says what a move can do.  From it comes the rule that all
statements about runs go through (`Reachable.invariant`): what holds at the
beginning, and is kept by each kind of move, holds always.
-/

namespace PeekLock.Remote.Traffic

/-- What a move can do. -/
inductive Turn (s : Traffic) : Traffic → Prop where
  | accepts (q : Demand) (hr : ∀ r, q.receiver? = some r → r < s.client.receivers.length) :
    Turn s (s.accept q)
  | advances (i : Nat) (q : Demand) (c : Call) (hi : s.calls[i]? = some ⟨q, .on c⟩)
    (hr : c.isReady s.now s.client = true) (ho : c.overflowing? s.client = none) :
    Turn s (s.advance i q c)
  | cutsShort (i : Nat) (q : Demand) (c : Receive) (o : Outcome)
    (hi : s.calls[i]? = some ⟨q, .on (.receiving c)⟩)
    (ho : o = .dropped ∨ ∃ e, o = .received (.error e)) :
    Turn s (s.cutShort i q c o)
  | arranges (outcomes : Table String (List (Option String)))
    (waiting : Table String (List Incoming)) : Turn s (s.arrange outcomes waiting)
  | waits (ms : Nat) : Turn s (s.pass ms)

theorem receiving_of_overflowing {s : Client} {c : Call} {k : Receive}
    (h : c.overflowing? s = some k) : c = .receiving k := by
  cases c with
  | receiving c =>
    simp only [Call.overflowing?] at h
    split at h
    · split at h
      · contradiction
      · rw [Option.some.inj h]
    · contradiction
  | _ => contradiction

/-- What each move does. -/
inductive Does (s : Traffic) : Move → Traffic → Prop where
  | begins (q : Demand) (hr : ∀ r, q.receiver? = some r → r < s.client.receivers.length) :
    Does s (.begin q) (s.accept q)
  | advances (i : Nat) (q : Demand) (c : Call) (hi : s.calls[i]? = some ⟨q, .on c⟩)
    (hr : c.isReady s.now s.client = true) (ho : c.overflowing? s.client = none) :
    Does s (.advance i) (s.advance i q c)
  | overflows (i : Nat) (q : Demand) (c : Receive)
    (hi : s.calls[i]? = some ⟨q, .on (.receiving c)⟩)
    (ho : (Call.receiving c).overflowing? s.client = some c) :
    Does s (.advance i) (s.cutShort i q c .dropped)
  | drops (i : Nat) (q : Demand) (c : Receive) (hi : s.calls[i]? = some ⟨q, .on (.receiving c)⟩) :
    Does s (.drop i) (s.cutShort i q c .dropped)
  | refuses (i : Nat) (problem : String) (q : Demand) (c : Receive)
    (position ticket link deadline : Nat) (hi : s.calls[i]? = some ⟨q, .on (.receiving c)⟩)
    (hp : c.point = .pulling position ticket link deadline) :
    Does s (.refuse i problem)
      (s.cutShort i q c (.received (.error (.receiveFailed problem))))
  | arranges (outcomes : Table String (List (Option String)))
    (waiting : Table String (List Incoming)) :
    Does s (.arrange outcomes waiting) (s.arrange outcomes waiting)
  | waits (ms : Nat) : Does s (.wait ms) (s.pass ms)

theorem does_of_after {s t : Traffic} {m : Move} (h : s.after m = some t) : Does s m t := by
  cases m with
  | begin q =>
    simp only [after] at h
    split at h
    · next hq =>
      cases h
      refine .begins q fun r hr => ?_
      rw [hr, Option.all_some, decide_eq_true_eq] at hq
      exact hq
    · contradiction
  | advance i =>
    simp only [after] at h
    split at h
    · next q c hi =>
      split at h
      · next hr =>
        split at h
        · next k ho =>
          cases h
          obtain rfl := receiving_of_overflowing ho
          exact .overflows i q k hi ho
        · next ho =>
          cases h
          exact .advances i q c hi hr ho
      · contradiction
    · contradiction
  | drop i =>
    simp only [after] at h
    split at h
    · next q c hi =>
      cases h
      exact .drops i q c hi
    · contradiction
  | refuse i problem =>
    simp only [after] at h
    split at h
    · next q c hi =>
      split at h
      · next position ticket link deadline hp =>
        cases h
        exact .refuses i problem q c position ticket link deadline hi hp
      · contradiction
    · contradiction
  | arrange outcomes waiting =>
    cases h
    exact .arranges outcomes waiting
  | wait ms =>
    cases h
    exact .waits ms

theorem turn_of_after {s t : Traffic} {m : Move} (h : s.after m = some t) : Turn s t := by
  cases does_of_after h with
  | begins q hr => exact .accepts q hr
  | advances i q c hi hr ho => exact .advances i q c hi hr ho
  | overflows i q c hi => exact .cutsShort i q c .dropped hi (.inl rfl)
  | drops i q c hi => exact .cutsShort i q c .dropped hi (.inl rfl)
  | refuses i problem q c position ticket link deadline hi =>
    exact .cutsShort i q c _ hi (.inr ⟨_, rfl⟩)
  | arranges outcomes waiting => exact .arranges outcomes waiting
  | waits ms => exact .waits ms

/-! ## Runs -/

/-- What a traffic leads to, it leads to step by step. -/
theorem Leads.trans {s t u : Traffic} (h : Leads s t) (k : Leads t u) : Leads s u := by
  induction k with
  | refl => exact h
  | step _ hm ih => exact ih.step hm

/-- What can come about leads to what can come about. -/
theorem Reachable.leads {s t : Traffic} (h : s.Reachable) (k : s.Leads t) : t.Reachable :=
  h.imp fun _ h => h.imp fun _ h => h.trans k

theorem Reachable.step {s t : Traffic} {m : Move} (h : s.Reachable) (hm : s.after m = some t) :
    t.Reachable :=
  h.leads (.step (.refl s) hm)

/-- **The rule of invariants**, from a given traffic on. -/
theorem Leads.invariant {P : Traffic → Prop} {s t : Traffic} (h : Leads s t) (start : P s)
    (turn : ∀ t u, s.Leads t → Turn t u → P t → P u) : P t := by
  induction h with
  | refl => exact start
  | step hl hm ih => exact turn _ _ hl (turn_of_after hm) ih

/-- **The rule of invariants**, from the beginning on. -/
theorem Reachable.invariant {P : Traffic → Prop} {s : Traffic} (h : s.Reachable)
    (start : ∀ supply print, P (start supply print))
    (turn : ∀ t u, t.Reachable → Turn t u → P t → P u) : P s := by
  obtain ⟨supply, print, h⟩ := h
  exact h.invariant (start supply print) fun t u hl ht hp => turn t u ⟨supply, print, hl⟩ ht hp

/-- What some moves lead to is reached. -/
theorem leads_of_run {s t : Traffic} {moves : List Move} (h : s.run moves = some t) :
    Leads s t :=
  keeps_of_foldlM h (.refl s) fun _ _ _ hl hm => hl.step hm

theorem reachable_of_run {s : Traffic} {supply : Identifier.Supply} {print : Amqp.Value → String}
    {moves : List Move} (h : run (start supply print) moves = some s) : s.Reachable :=
  ⟨supply, print, leads_of_run h⟩

/-! ## Entries -/

/-- At the beginning there are no calls. -/
theorem calls_start {supply : Identifier.Supply} {print : Amqp.Value → String} (i : Nat)
    (x : Entry) : (start supply print).calls[i]? ≠ some x :=
  (Option.some_ne_none x).symm

/-- A call is on its way. -/
def Carries (s : Traffic) (c : Call) : Prop :=
  ∃ (i : Nat) (q : Demand), s.calls[i]? = some ⟨q, .on c⟩

/-- An entry after the beginning of a call was there before, or it is that of the call. -/
theorem entry_of_accept {s : Traffic} {q : Demand} {j : Nat} {x : Entry}
    (h : (s.accept q).calls[j]? = some x) :
    s.calls[j]? = some x ∨ j = s.calls.length ∧ x = ⟨q, .on q.call⟩ := by
  rw [accept, List.getElem?_append] at h
  split at h
  · exact .inl h
  · next hj =>
    obtain ⟨hlt, hx⟩ := List.getElem?_eq_some_iff.mp h
    rw [List.getElem_singleton] at hx
    rw [List.length_singleton] at hlt
    exact .inr ⟨by omega, hx.symm⟩

/-- An entry after another was replaced was there before, or it is the new one. -/
theorem entry_of_set {α : Type} {entries : List α} {i j : Nat} {x y : α}
    (h : (entries.set i y)[j]? = some x) :
    i ≠ j ∧ entries[j]? = some x ∨ i = j ∧ x = y := by
  by_cases hij : i = j
  · subst hij
    obtain ⟨hlt, hx⟩ := List.getElem?_eq_some_iff.mp h
    rw [List.getElem_set_self] at hx
    exact .inr ⟨rfl, hx.symm⟩
  · rw [List.getElem?_set_ne hij] at h
    exact .inl ⟨hij, h⟩

end PeekLock.Remote.Traffic
