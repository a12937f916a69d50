import PeekLock.Proofs.Consumer.Custody

/-!
# PeekLock.Proofs.Consumer.Stops

What the stops of a consumer have done.

The one stop that has moved the consumer on to stopping waits for the crew
and then calls the receiver's close.  Where it stands tells what it has
done before (`Reachable.told`): whose deadline it keeps, that it has
cancelled the scope of the crew and when, and what the close has returned.
-/

namespace PeekLock.Consumer.Life

/-! ## What calls have done -/

section

variable (settings : ConsumerSettings) (s : Life) (i : Nat)

/-- That call has taken a step, and the step was such. -/
def Did (P : Life → Call → Life → Prop) : Prop :=
  ∃ (u v : Life) (q : Request) (k : Call), u.Reachable settings ∧
    u.calls[i]? = some ⟨q, .on k⟩ ∧ u.after (.advance i) = some v ∧ v.Leads s ∧ P u k v

/-- It has moved the consumer on to stopping. -/
def Claimed : Prop :=
  Did settings s i fun u _ v =>
    (u.consumer.phase = .created ∨ u.consumer.phase = .running) ∧ v.consumer.phase = .stopping

/-- It has cancelled the scope of the crew, to wait so long for it, which is until then. -/
def Cancelled (wait : Duration) (due : Nat) : Prop :=
  Did settings s i fun u k v => k = .stopping (.draining 0 wait (.stopping wait.ticks)) ∧
    (v.consumer.crew 0).pool.stopped = true ∧ due = u.now + wait.ticks

/-- The receiver's close has returned to it. -/
def Answered (closed : Except BusError Unit) : Prop :=
  ∃ (u v : Life) (q : Request), u.Reachable settings ∧
    u.calls[i]? = some ⟨q, .on (.stopping .closing)⟩ ∧ u.after (.answer i closed) = some v ∧
      v.Leads s

/-- What a call at a point has done before. -/
def Told (q : Request) : Call → Prop
  | .stopping (.claimingRunning d) => q = .stop d
  | .stopping (.claimingCreated d) => q = .stop d
  | .stopping (.locking d) => q = .stop d ∧ Claimed settings s i
  | .stopping (.draining _ wait (.stopping ticks)) =>
    (∃ d, q = .stop d ∧ wait = Stop.wait s.consumer d) ∧ ticks = wait.ticks ∧
      Claimed settings s i
  | .stopping (.draining _ wait (.joining _ due)) =>
    (∃ d, q = .stop d ∧ wait = Stop.wait s.consumer d) ∧ Claimed settings s i ∧
      Cancelled settings s i wait due
  | .stopping .closing => Claimed settings s i
  | .stopping (.storing closed) => Claimed settings s i ∧ Answered settings s i closed
  | _ => True

end

variable {settings : ConsumerSettings} {s t : Life} {i : Nat}

theorem Did.later {P : Life → Call → Life → Prop} (h : s.Did settings i P) {m : Move}
    (hm : s.after m = some t) : t.Did settings i P := by
  obtain ⟨u, v, q, k, hu, hi, huv, hvs, hp⟩ := h
  exact ⟨u, v, q, k, hu, hi, huv, hvs.step hm, hp⟩

theorem Answered.later {closed : Except BusError Unit} (h : s.Answered settings i closed)
    {m : Move} (hm : s.after m = some t) : t.Answered settings i closed := by
  obtain ⟨u, v, q, hu, hi, huv, hvs⟩ := h
  exact ⟨u, v, q, hu, hi, huv, hvs.step hm⟩

theorem wait_congr {c c' : Consumer} (h : c'.settings = c.settings) (d : Option Duration) :
    Stop.wait c' d = Stop.wait c d := by
  rw [Stop.wait, Stop.wait, h]

theorem Told.later {q : Request} {k : Call} (h : s.Told settings i q k) {m : Move}
    (hm : s.after m = some t) (hs : t.consumer.settings = s.consumer.settings) :
    t.Told settings i q k := by
  unfold Told at h ⊢
  split at h
  · exact h
  · exact h
  · exact ⟨h.1, h.2.later hm⟩
  · obtain ⟨⟨d, hq, hw⟩, ht, hc⟩ := h
    exact ⟨⟨d, hq, hw.trans (wait_congr hs d).symm⟩, ht, hc.later hm⟩
  · obtain ⟨⟨d, hq, hw⟩, hc, hx⟩ := h
    exact ⟨⟨d, hq, hw.trans (wait_congr hs d).symm⟩, hc.later hm, hx.later hm⟩
  · exact h.later hm
  · exact ⟨h.1.later hm, h.2.later hm⟩
  · trivial

/-- A call at a point has done what leads there. -/
theorem told_of_turn (hr : s.Reachable settings) {m : Move} {q : Request} {k k' : Call}
    {c : Consumer} (hi : s.calls[i]? = some ⟨q, .on k⟩) (h : s.Told settings i q k)
    (ht : Turn s.now s.consumer k c (.on k')) (hm : s.after m = some (s.resume i q c (.on k')))
    (hmove : m = .advance i ∧ k ≠ .stopping .closing ∨
      ∃ closed, m = .answer i closed ∧ k = .stopping .closing ∧
        Progress.on (α := Outcome) k' = .on (.stopping (.storing closed))) :
    (s.resume i q c (.on k')).Told settings i q k' := by
  have hdid {P : Life → Call → Life → Prop} (hk : k ≠ .stopping .closing)
      (hp : P s k (s.resume i q c (.on k'))) : (s.resume i q c (.on k')).Did settings i P := by
    obtain ⟨rfl, -⟩ | ⟨-, -, rfl, -⟩ := hmove
    · exact ⟨s, _, q, k, hr, hi, hm, .refl _, hp⟩
    · contradiction
  cases ht with
  | claimsRunning d hp => exact ⟨h, hdid nofun ⟨.inr hp, rfl⟩⟩
  | missesRunning d => exact h
  | claimsCreated d hp => exact ⟨h, hdid nofun ⟨.inl hp, rfl⟩⟩
  | findsNone d => exact h.2.later hm
  | takes d n => exact ⟨⟨d, h.1, rfl⟩, rfl, h.2.later hm⟩
  | cancels n wait ticks =>
    obtain ⟨hw, rfl, hc⟩ := h
    have ht := hr.leads (.step (.refl s) hm)
    obtain ⟨rfl, -, x, hx, -, -, hstopped⟩ := ht.custody.of_draining (getElem?_resume hi)
    refine ⟨hw, hc.later hm, hdid nofun ⟨rfl, ?_, rfl⟩⟩
    rw [crew_zero hx]
    exact hstopped
  | drains n wait workers due => exact h.2.1.later hm
  | isAnswered closed =>
    obtain ⟨-, hne⟩ | ⟨closed', rfl, -, heq⟩ := hmove
    · exact (hne rfl).elim
    · cases heq
      exact ⟨Did.later h hm, s, _, q, hr, hi, hm, .refl _⟩
  | _ => trivial

/-- Every call has done what leads to where it is. -/
theorem Reachable.told (h : s.Reachable settings) {q : Request} {k : Call}
    (hi : s.calls[i]? = some ⟨q, .on k⟩) : s.Told settings i q k := by
  obtain ⟨receiver, h⟩ := h
  induction h generalizing i q k with
  | refl => contradiction
  | @step t u m ht hm ih =>
    have hr : t.Reachable settings := ⟨receiver, ht⟩
    have hs : u.consumer.settings = t.consumer.settings :=
      (hr.leads (.step (.refl t) hm)).settings.trans hr.settings.symm
    obtain ⟨q', -, rfl⟩ | ⟨j, q', k', c, p, hj, hturn, rfl, hmove⟩ |
      ⟨crew, worker, how, -, -, rfl⟩ | ⟨ms, -, rfl⟩ := after_cases hm
    · obtain hi | hx := entry_of_accept hi
      · exact (ih hi).later hm hs
      · cases q' with
        | start caller => cases hx; trivial
        | stop d => cases hx; rfl
    · obtain ⟨rfl, hx⟩ | ⟨-, hi⟩ := entry_of_resume hj hi
      · cases hx
        exact told_of_turn hr hj (ih hj) hturn hm hmove
      · exact (ih hi).later hm hs
    · exact (ih hi).later hm hs
    · exact (ih hi).later hm hs

/-- The move from one life to the next calls the receiver's close, for that stop. -/
def CallsClose (s t : Life) (i : Nat) : Prop :=
  ∃ m q k, s.after m = some t ∧ s.calls[i]? = some ⟨q, .on k⟩ ∧ k ≠ .stopping .closing ∧
    t.calls[i]? = some ⟨q, .on (.stopping .closing)⟩

/-- A stop calls the receiver's close when it has found no crew, or has waited for one. -/
theorem CallsClose.turn (h : s.CallsClose t i) : ∃ q k c, s.calls[i]? = some ⟨q, .on k⟩ ∧
    Turn s.now s.consumer k c (.on (.stopping .closing)) ∧
      t = s.resume i q c (.on (.stopping .closing)) := by
  obtain ⟨m, q, k, hm, hs, hk, ht⟩ := h
  obtain ⟨q', k', c, p, hx, hy, hturn, rfl⟩ := turn_of_after hm hs ht (by simpa using hk)
  cases hx
  cases hy
  exact ⟨q, k, c, hs, hturn, rfl⟩

/-- A stop that has called the receiver's close is in charge until the consumer is
stopped, and does not call it again. -/
theorem Leads.closing_or_stopped (h : s.Leads t) {q : Request}
    (hi : s.calls[i]? = some ⟨q, .on (.stopping .closing)⟩) :
    t.calls[i]? = some ⟨q, .on (.stopping .closing)⟩ ∨
      (∃ closed, t.calls[i]? = some ⟨q, .on (.stopping (.storing closed))⟩) ∨
        t.consumer.phase = .stopped := by
  refine h.invariant (P := fun t => t.calls[i]? = some ⟨q, .on (.stopping .closing)⟩ ∨
    (∃ closed, t.calls[i]? = some ⟨q, .on (.stopping (.storing closed))⟩) ∨
      t.consumer.phase = .stopped) (.inl hi) ?_ ?_ ?_ ?_
  · rintro u q' (hu | ⟨closed, hu⟩ | hu)
    · exact .inl (getElem?_accept hu)
    · exact .inr (.inl ⟨closed, getElem?_accept hu⟩)
    · exact .inr (.inr hu)
  · rintro u j q' k c p - hj hturn hu
    by_cases hji : j = i
    · subst hji
      rw [hj] at hu
      obtain hu | ⟨closed, hu⟩ | hu := hu
      · cases hu
        cases hturn with
        | isAnswered closed => exact .inr (.inl ⟨closed, getElem?_resume hj⟩)
      · cases hu
        cases hturn with
        | stores => exact .inr (.inr rfl)
      · exact .inr (.inr (hturn.phase_of_stopped hu))
    · rw [getElem?_resume_ne hji]
      exact hu.imp_right fun hu => hu.imp_right hturn.phase_of_stopped
  · exact fun u crew worker how _ hu => hu
  · exact fun u ms hu => hu

end PeekLock.Consumer.Life
