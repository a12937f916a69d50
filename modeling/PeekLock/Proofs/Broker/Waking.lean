import PeekLock.Proofs.Broker.Telling

/-!
# PeekLock.Proofs.Broker.Waking

No wake-up is lost.

A receive notes how often the waiting calls have been told to look again
before it looks at its receiver and at its queue.  As long as that number
stays the same, nothing can have happened that it does not know of, except
what some call has done and not told yet.  That is the invariant of every
receive on its way (`Watchful`), and each move keeps it.
-/

namespace PeekLock.Broker

/-! ## What a receive knows -/

/-- The deadline of a receive and the broadcasts it has seen, from the point on
at which it has noted them. -/
def Receive.Point.watch? : Receive.Point → Option (Nat × Nat)
  | .checking deadline seen => some (deadline, seen)
  | .looking deadline seen => some (deadline, seen)
  | .parked deadline seen => some (deadline, seen)
  | _ => none

namespace Traffic

/-- A receive on its way knows of everything that was told. -/
structure Watchful (s : Traffic) (began : Nat) (c : Receive) : Prop where
  begun : began ≤ s.now
  due : ∀ deadline seen, c.point.watch? = some (deadline, seen) →
    began + c.timeout.ticks ≤ deadline
  seen : ∀ deadline seen, c.point.watch? = some (deadline, seen) → seen ≤ s.broker.broadcasts
  /-- Once it has checked that its receiver is open, a close of it is still to be told. -/
  opened : ∀ deadline, c.point = .looking deadline s.broker.broadcasts ∨
    c.point = .parked deadline s.broker.broadcasts → s.OpenUntold c.receiver
  /-- Once it has looked at its queue, what lies there is still to be told. -/
  quiet : ∀ deadline, c.point = .parked deadline s.broker.broadcasts → 1 ≤ c.most →
    s.Quiet c.receiver.entity

namespace Watchful

/-- A receive that has not noted the broadcasts yet has nothing to know. -/
theorem of_watch?_eq_none {s : Traffic} {began : Nat} {c : Receive} (begun : began ≤ s.now)
    (h : c.point.watch? = none) : s.Watchful began c where
  begun := begun
  due _ _ hw := by rw [h] at hw; contradiction
  seen _ _ hw := by rw [h] at hw; contradiction
  opened _ hp := by rcases hp with hp | hp <;> rw [hp] at h <;> contradiction
  quiet _ hp := by rw [hp] at h; contradiction

/-- A receive that has just noted the broadcasts. -/
theorem of_checking {s : Traffic} {began deadline : Nat} {c : Receive} (begun : began ≤ s.now)
    (due : began + c.timeout.ticks ≤ deadline)
    (h : c.point = .checking deadline s.broker.broadcasts) : s.Watchful began c where
  begun := begun
  due _ _ hw := by
    rw [h] at hw
    cases hw
    exact due
  seen _ _ hw := by
    rw [h] at hw
    cases hw
    exact Nat.le_refl _
  opened _ hp := by rcases hp with hp | hp <;> rw [h] at hp <;> contradiction
  quiet _ hp := by rw [h] at hp; contradiction

/-- What happens beside a receive leaves it watchful. -/
theorem of_follows {s t : Traffic} {began : Nat} {c : Receive} (h : s.Watchful began c)
    (hf : Follows s t) : t.Watchful began c where
  begun := Nat.le_trans h.begun hf.now
  due := h.due
  seen _ _ hw := Nat.le_trans (h.seen _ _ hw) hf.broadcasts
  opened deadline hp := by
    -- What it has seen is what was told before, so nothing was told since.
    have hle : t.broker.broadcasts ≤ s.broker.broadcasts := by
      rcases hp with hp | hp <;> exact h.seen deadline _ (by rw [hp]; rfl)
    have hb := Nat.le_antisymm hle hf.broadcasts
    rw [hb] at hp
    exact hf.opened hb _ (h.opened deadline hp)
  quiet deadline hp hmost := by
    have hb := Nat.le_antisymm (h.seen deadline _ (by rw [hp]; rfl)) hf.broadcasts
    rw [hb] at hp
    exact hf.quiet hb _ (h.quiet deadline hp hmost)

/-- Where a receive has looked and found nothing, nothing waits. -/
theorem queue_looked {s : Traffic} {i began most : Nat} {r : Receiver} {timeout : Duration}
    {deadline seen : Nat} (hempty : (s.broker.take r most).1.isEmpty) (hmost : 1 ≤ most) :
    (s.advance i began (.receiving ⟨r, most, timeout, .looking deadline seen⟩)).broker.queue
      r.entity = [] := by
  have hk : (s.advance i began (.receiving ⟨r, most, timeout, .looking deadline seen⟩)).broker.queue
      r.entity = (s.broker.take r most).2.queue r.entity :=
    (Receive.step_keepsCopies s.now s.broker _).queue r.entity
  rw [hk, queue_take, if_pos rfl]
  obtain hzero | hnil := List.take_eq_nil_iff.mp (take_queue_of_isEmpty hempty)
  · omega
  · rw [hnil, List.drop_nil]

/-- A step of a receive leaves it watchful. -/
theorem step {s : Traffic} {i began : Nat} {c c' : Receive}
    (hi : s.calls[i]? = some ⟨began, .on (.receiving c)⟩) (h : s.Watchful began c)
    (hc : (c.step s.now s.broker).progress = .on c') :
    (s.advance i began (.receiving c)).Watchful began c' := by
  have hf := follows_advance hi
  have hb : (s.advance i began (.receiving c)).broker.broadcasts = s.broker.broadcasts :=
    broadcasts_advance s i began (.receiving c)
  have hdue : began + c.timeout.ticks ≤ s.now + c.timeout.ticks :=
    Nat.add_le_add_right h.begun _
  obtain ⟨r, most, timeout, point⟩ := c
  cases point with
  | arriving =>
    simp only [Receive.step] at hc
    split at hc
    · cases hc
      exact of_watch?_eq_none h.begun rfl
    · contradiction
  | readingFaults =>
    simp only [Receive.step] at hc
    split at hc
    · contradiction
    · contradiction
    · cases hc
      exact of_watch?_eq_none h.begun rfl
    · cases hc
      exact of_checking h.begun hdue (by rw [hb])
  | delayed due =>
    simp only [Receive.step] at hc
    cases hc
    exact of_checking h.begun hdue (by rw [hb])
  | checking deadline seen =>
    simp only [Receive.step] at hc
    split at hc
    · next hopen =>
      cases hc
      exact {
        begun := h.begun
        due := h.due
        seen := fun d n hw => Nat.le_trans (h.seen d n hw) hf.broadcasts
        opened := fun _ _ => hf.opened hb r (.inl hopen)
        quiet := fun _ hp => by contradiction }
    · contradiction
  | looking deadline seen =>
    simp only [Receive.step] at hc
    split at hc
    · next hempty =>
      cases hc
      exact {
        begun := h.begun
        due := h.due
        seen := fun d n hw => Nat.le_trans (h.seen d n hw) hf.broadcasts
        opened := fun d hp => by
          obtain hp | hp := hp
          · contradiction
          · injection hp with _ hseen
            exact hf.opened hb r (h.opened deadline (.inl (by rw [hseen, hb])))
        quiet := fun d _ hmost x hx => by
          rw [queue_looked hempty hmost] at hx
          contradiction }
    · contradiction
  | parked deadline seen =>
    simp only [Receive.step] at hc
    split at hc
    · cases hc
      exact of_checking h.begun (h.due deadline seen rfl) (by rw [hb])
    · contradiction

end Watchful

/-! ## Every order of calls -/

/-- In every traffic that can be reached, every receive on its way is watchful. -/
theorem Reachable.watchful {s : Traffic} (h : s.Reachable) {i began : Nat} {c : Receive}
    (hi : s.calls[i]? = some ⟨began, .on (.receiving c)⟩) : s.Watchful began c := by
  suffices hall : ∀ (i began : Nat) (c : Receive),
      s.calls[i]? = some ⟨began, .on (.receiving c)⟩ → s.Watchful began c from hall i began c hi
  obtain ⟨supply, h⟩ := h
  refine h.invariant (P := fun s => ∀ (i began : Nat) (c : Receive),
    s.calls[i]? = some ⟨began, .on (.receiving c)⟩ → s.Watchful began c) ?_ ?_ ?_ ?_ ?_ ?_
  · intro i began c hi
    contradiction
  · intro s q _ ih j began c hj
    obtain hj | ⟨rfl, hp⟩ := receiving_of_accept hj
    · exact (ih j began c hj).of_follows (follows_accept s q)
    · exact .of_watch?_eq_none (Nat.le_refl _) (by rw [hp]; rfl)
  · intro s i began c hi _ ih j began' k hj
    obtain hj | ⟨rfl, k', rfl, hstep⟩ := receiving_of_advance hi hj
    · exact (ih j began' k hj).of_follows (follows_advance hi)
    · exact (ih i began' k' hi).step hi hstep
  · exact fun s i began c hi ih j began' k hj =>
      (ih j began' k (receiving_of_dropReceive hi hj)).of_follows (follows_dropReceive hi)
  · exact fun s ms ih j began c hj => (ih j began c hj).of_follows (follows_pass s ms)
  · exact fun s locks _ ih j began c hj =>
      (ih j began c hj).of_follows (follows_rearrange s locks)

/-- Only a receive that is parked at its deadline, and was told nothing, ends
empty-handed. -/
theorem parked_of_step_nil {now : Nat} {b : Broker} {c : Receive} (hr : c.isReady now b = true)
    (h : (c.step now b).progress = .done (.ok [])) :
    ∃ deadline, c.point = .parked deadline b.broadcasts ∧ deadline ≤ now := by
  obtain ⟨r, most, timeout, point⟩ := c
  cases point with
  | arriving => simp only [Receive.step] at h; split at h <;> cases h
  | readingFaults => simp only [Receive.step] at h; split at h <;> cases h
  | delayed due => cases h
  | checking deadline seen => simp only [Receive.step] at h; split at h <;> cases h
  | looking deadline seen =>
    simp only [Receive.step] at h
    split at h
    · cases h
    · next hmessages =>
      injection h with h
      injection h with h
      rw [h] at hmessages
      contradiction
  | parked deadline seen =>
    simp only [Receive.step] at h
    split at h
    · cases h
    · next hseen =>
      rw [Decidable.not_not] at hseen
      refine ⟨deadline, by rw [hseen], ?_⟩
      simpa [Receive.isReady, hseen] using hr

/-- **No wake-up is lost**: while a receive is parked and was not told to look
again, nothing waits in its queue and its receiver is open, except for what
was put there and for a close that was begun by calls that have not told so
yet.  And a receive ends empty-handed only from there, when its time is over. -/
theorem Reachable.no_lost_wakeup {s : Traffic} (h : s.Reachable) {i began : Nat} {c : Receive}
    (hi : s.calls[i]? = some ⟨began, .on (.receiving c)⟩) (hmost : 1 ≤ c.most) :
    (∀ deadline, c.point = .parked deadline s.broker.broadcasts →
      s.Quiet c.receiver.entity ∧ s.OpenUntold c.receiver) ∧
    ∀ m t, s.after m = some t → t.calls[i]? = some ⟨began, .done (.received (.ok []))⟩ →
      ∃ deadline, c.point = .parked deadline s.broker.broadcasts ∧
        began + c.timeout.ticks ≤ deadline ∧ deadline ≤ t.now ∧ t.Quiet c.receiver.entity := by
  have hw := h.watchful hi
  constructor
  · intro deadline hp
    exact ⟨hw.quiet deadline hp hmost, hw.opened deadline (.inr hp)⟩
  · intro m t hm ht
    obtain ⟨hr, rfl, hnil⟩ := advance_of_received hi hm ht
    obtain ⟨deadline, hp, hdue⟩ := parked_of_step_nil hr hnil
    refine ⟨deadline, hp, hw.due deadline _ (by rw [hp]; rfl), hdue, ?_⟩
    exact (follows_advance hi).quiet (broadcasts_advance s i began (.receiving c)) _
      (hw.quiet deadline hp hmost)

/-- A receive is parked, and its time is over; a send has put a message into its
queue and not told so yet. -/
def aboutToTell : List Move := [
  .begin (.createReceiver "orders"), .advance 0, .advance 0,
  .begin (.receive ⟨0, "orders"⟩ 1 (.ofMillis 50)), .advance 1, .advance 1, .advance 1, .advance 1,
  .begin (.send "orders" [1] {}), .advance 2, .advance 2, .wait 50]

/-- That receive. -/
def parkedReceive : Receive := ⟨⟨0, "orders"⟩, 1, .ofMillis 50, .parked 50 0⟩

theorem no_lost_wakeup_aboutToTell : ∃ s t, run {} aboutToTell = some s ∧
    s.broker.messageCount "orders" = 1 ∧ s.Quiet "orders" ∧
    s.after (.advance 1) = some t ∧ t.calls[1]? = some ⟨0, .done (.received (.ok []))⟩ ∧
    t.now = 50 ∧ t.Quiet "orders" := by
  have hrun : (run {} aboutToTell).any fun s =>
      s.broker.messageCount "orders" = 1 ∧ s.broker.broadcasts = 0 ∧ s.now = 50 := by
    decide
  obtain ⟨s, hs, hp⟩ := (Option.any_eq_true _ _).mp hrun
  obtain ⟨hcount, hb, hnow⟩ := of_decide_eq_true hp
  have hi : s.calls[1]? = some ⟨0, .on (.receiving parkedReceive)⟩ := by
    have h : (run {} aboutToTell).map (·.calls[1]?) =
        some (some ⟨0, .on (.receiving parkedReceive)⟩) := by
      rfl
    rw [hs] at h
    exact Option.some.inj h
  have hpoint : parkedReceive.point = .parked 50 s.broker.broadcasts := by
    rw [hb]
    rfl
  obtain ⟨hparked, hends⟩ := Reachable.no_lost_wakeup (reachable_of_run hs) hi (by decide)
  have hm : s.after (.advance 1) = some (s.advance 1 0 (.receiving parkedReceive)) := by
    simp [after, hi, Call.isReady, Receive.isReady, parkedReceive, hnow]
  have ht : (s.advance 1 0 (.receiving parkedReceive)).calls[1]? =
      some ⟨0, .done (.received (.ok []))⟩ := by
    rw [getElem?_advance hi]
    simp [Call.step, Step.map, Receive.step, parkedReceive, hb, Receive.finish, Progress.map]
  obtain ⟨_, -, -, -, hquiet⟩ := hends _ _ hm ht
  exact ⟨s, _, hs, hcount, (hparked 50 hpoint).1, hm, ht, hnow, hquiet⟩

end Traffic

end PeekLock.Broker
