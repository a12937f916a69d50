import PeekLock.Proofs.Consumer.Custody

/-!
# PeekLock.Proofs.Consumer.Starts

What the starts of a consumer end with.

A start that is refused has changed nothing but the use of the slot, and it
names the phase that it has found.  No start hangs: whoever has the slot
can leave it.
-/

namespace PeekLock.Consumer.Life

variable {settings : ConsumerSettings} {s t : Life} {i : Nat}

/-! ## Hiring -/

/-- A start that ends well has hired the crew. -/
theorem Reachable.hires (h : s.Reachable settings) {m : Move} (hm : s.after m = some t)
    {q : Request} {k : Call} {n : Nat} (hi : s.calls[i]? = some ⟨q, .on k⟩)
    (ht : t.calls[i]? = some ⟨q, .done (.started (.ok n))⟩) :
    s.consumer.crews = [] ∧ ∃ caller,
      t.consumer.crews = [⟨hire settings.normalized.workers {}, caller⟩] := by
  obtain ⟨q', k', c, p, hx, hy, hturn, rfl⟩ := turn_of_after hm hi ht nofun
  cases hx
  cases hy
  cases hturn with
  | hires caller =>
    have hcrews := h.orderly.crews_of_isHiring hi rfl
    refine ⟨hcrews, caller, ?_⟩
    show s.consumer.crews ++ _ = _
    rw [hcrews, h.settings]
    rfl

/-! ## Being refused -/

/-- Why a start is refused. -/
def Refuses (c : Consumer) : Progress Call Outcome → Prop
  | .on (.starting .refusing) => c.phase ≠ .created
  | .done (.started (.error e)) => ∃ phase, phase ≠ .created ∧ e = Start.refusal phase
  | _ => True

theorem Refuses.later {c c' : Consumer} {p : Progress Call Outcome} (h : Refuses c p)
    (hc : c.phase ≠ .created → c'.phase ≠ .created) : Refuses c' p := by
  unfold Refuses at h ⊢
  split at h
  · exact hc h
  · exact h
  · trivial

/-- A start is refused because the consumer is not in its first phase any more. -/
theorem Reachable.refuses (h : s.Reachable settings) :
    ∀ (i : Nat) q p, s.calls[i]? = some ⟨q, p⟩ → Refuses s.consumer p := by
  obtain ⟨receiver, h⟩ := h
  refine h.invariant (P := fun s => ∀ (i : Nat) q p, s.calls[i]? = some ⟨q, p⟩ →
    Refuses s.consumer p) (fun i q p hi => by contradiction) ?_ ?_ ?_ ?_
  · intro u q ih i q' p hi
    obtain hi | hx := entry_of_accept hi
    · exact ih i q' p hi
    · cases q <;> cases hx <;> trivial
  · intro u i q k c p _ hi hturn ih j q' p' hj
    obtain ⟨-, hx⟩ | ⟨-, hj⟩ := entry_of_resume hi hj
    · cases hx
      have hk := ih i q (.on k) hi
      cases hturn with
      | isTooLate _ hp => exact hp
      | isRefused => exact ⟨u.consumer.phase, hk, rfl⟩
      | _ => trivial
    · exact (ih j q' p' hj).later hturn.phase_ne_created
  · exact fun u crew worker how _ ih => ih
  · exact fun u ms ih => ih

/-- A call that is not going to be refused as a start. -/
inductive NeverRefused : Progress Call Outcome → Prop where
  | spawning (caller : String) : NeverRefused (.on (.starting (.spawning caller)))
  | started (n : Nat) : NeverRefused (.done (.started (.ok n)))
  | stopping (k : Stop) : NeverRefused (.on (.stopping k))
  | stopped (closed : Stop.Result) : NeverRefused (.done (.stopped closed))

theorem NeverRefused.turn {now : Nat} {c c' : Consumer} {k : Call} {p : Progress Call Outcome}
    (ht : Turn now c k c' p) (h : NeverRefused (.on k)) : NeverRefused p := by
  cases h with
  | spawning caller =>
    cases ht with
    | hires => exact .started _
  | stopping k => cases ht <;> constructor

/-- One start has come to its end and has left the slot, and no other call has moved. -/
structure Leaves (s t : Life) (i : Nat) (q : Request) : Prop where
  leads : s.Leads t
  ended : ∃ result, t.calls[i]? = some ⟨q, .done (.started result)⟩
  free : t.consumer.slotHeld = false
  others : ∀ j, i ≠ j → t.calls[j]? = s.calls[j]?

theorem Leaves.of_step {u : Life} {q : Request} {c : Consumer} {p : Progress Call Outcome}
    (hm : s.after (.advance i) = some (s.resume i q c p))
    (h : (s.resume i q c p).Leaves u i q) : s.Leaves u i q where
  leads := (Leads.step (.refl s) hm).trans h.leads
  ended := h.ended
  free := h.free
  others j hij := (h.others j hij).trans (getElem?_resume_ne hij)

end PeekLock.Consumer.Life
