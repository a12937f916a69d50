import PeekLock.Proofs.Broker.Telling

/-!
# PeekLock.Proofs.Broker.Closing

What a closed receiver leaves behind.

Closing a receiver lets its locks lapse.  It stays without locks from then
on, unless a receive of it was caught between the check that the receiver
is open and the look at the queue (`Leads.lockless`).  Such a receive goes
on to check out messages for the closed receiver, which can settle none of
them (`locked_after_close`).
-/

namespace PeekLock.Broker

/-- A closed receiver is never opened again. -/
theorem Call.isOpen_step {b : Broker} {r : Receiver} (h : b.isOpen r = false) (now : Nat)
    (c : Call) : (c.step now b).state.isOpen r = false := by
  obtain hs | ⟨k, rfl⟩ := c.step_silent now b
  · have hb : (c.told b).closed = b.closed := by
      unfold told
      split <;> rfl
    rw [isOpen, hs.closed, hb]
    exact h
  · simp only [Call.step, Step.map, Close.step]
    split
    · have hmem : r.id ∈ b.closed := by simpa [isOpen] using h
      simp [isOpen, hmem]
    · exact h

/-- A receive comes to look at its queue only if its receiver is open. -/
theorem Receive.isOpen_of_looking {now : Nat} {b : Broker} {c c' : Receive} {deadline seen : Nat}
    (h : (c.step now b).progress = .on c') (hp : c'.point = .looking deadline seen) :
    b.isOpen c'.receiver = true := by
  obtain ⟨r, most, timeout, point⟩ := c
  cases point with
  | checking d n =>
    simp only [Receive.step] at h
    split at h
    · next hopen =>
      cases h
      exact hopen
    · contradiction
  | delayed due =>
    cases h
    contradiction
  | _ =>
    simp only [Receive.step] at h
    split at h <;> cases h <;> contradiction

/-- Dropping a receive opens and closes nothing. -/
theorem Receive.isOpen_drop (b : Broker) (c : Receive) (r : Receiver) :
    (c.drop b).isOpen r = b.isOpen r := by
  unfold Receive.drop
  split <;> rfl

namespace Traffic

/-- A receiver is closed and has no locks, and none of its receives is about to look
at the queue. -/
structure Lockless (s : Traffic) (r : Receiver) : Prop where
  closed : s.broker.isOpen r = false
  locks : ∀ l ∈ s.broker.locks, l.receiver ≠ r.id
  looking : ∀ (i began : Nat) (c : Receive), s.calls[i]? = some ⟨began, .on (.receiving c)⟩ →
    c.receiver.id = r.id → ∀ deadline seen, c.point ≠ .looking deadline seen

/-- When the locks of a closed receiver lapse, it is left without any. -/
theorem lockless_of_lapse {s : Traffic} {i began : Nat} {r : Receiver}
    (hi : s.calls[i]? = some ⟨began, .on (.closing ⟨r, .lapsing⟩)⟩)
    (closed : s.broker.isOpen r = false)
    (looking : ∀ (j began : Nat) (c : Receive),
      s.calls[j]? = some ⟨began, .on (.receiving c)⟩ → c.receiver.id = r.id →
        ∀ deadline seen, c.point ≠ .looking deadline seen) :
    (s.advance i began (.closing ⟨r, .lapsing⟩)).Lockless r where
  closed := Call.isOpen_step closed s.now _
  locks := by
    intro l hl
    have hlapse : l ∈ (s.broker.lapse r).locks := hl
    rw [lapse_eq] at hlapse
    simpa using (List.mem_filter.mp hlapse).2
  looking := by
    intro j began' c hj
    obtain hj | ⟨-, k, hk, -⟩ := receiving_of_advance hi hj
    · exact looking j began' c hj
    · contradiction

theorem Lockless.advance {s : Traffic} {r : Receiver} (h : s.Lockless r) {i began : Nat}
    {c : Call} (hi : s.calls[i]? = some ⟨began, .on c⟩) : (s.advance i began c).Lockless r where
  closed := Call.isOpen_step h.closed s.now c
  locks := by
    intro l hl
    have hl' : l ∈ ((c.transfer s.broker).apply s.broker).locks :=
      (c.step_keepsCopies s.now s.broker).locks.mem_iff.mp hl
    obtain hl' | ⟨k, most, ht, hr, -⟩ := mem_locks_apply hl'
    · exact h.locks l hl'
    · obtain ⟨timeout, deadline, seen, rfl⟩ := Call.looking_of_take ht
      intro hid
      exact h.looking i began _ hi (hr.symm.trans hid) deadline seen rfl
  looking := by
    intro j began' c' hj hid deadline seen hp
    obtain hj | ⟨-, k, rfl, hstep⟩ := receiving_of_advance hi hj
    · exact h.looking j began' c' hj hid deadline seen hp
    · have hopen := Receive.isOpen_of_looking hstep hp
      rw [isOpen, hid, ← isOpen, h.closed] at hopen
      contradiction

/-- **Closed for good**: a closed receiver that has no locks, and of which no receive
is about to look at the queue, never has locks again. -/
theorem Leads.lockless {s t : Traffic} (h : s.Leads t) {r : Receiver} (hr : s.Lockless r) :
    t.Lockless r := by
  refine h.invariant (P := fun t => t.Lockless r) hr ?_ ?_ ?_ ?_ ?_
  · intro t q _ ih
    refine ⟨ih.closed, ih.locks, fun j began c hj hid deadline seen hp => ?_⟩
    obtain hj | ⟨-, harriving⟩ := receiving_of_accept hj
    · exact ih.looking j began c hj hid deadline seen hp
    · rw [hp] at harriving
      contradiction
  · exact fun t i began c hi _ ih => ih.advance hi
  · intro t i began c hi ih
    have hd := c.drop_keepsCopies t.broker
    refine ⟨?_, fun l hl => ih.locks l (hd.locks.mem_iff.mp hl), ?_⟩
    · exact (c.isOpen_drop t.broker r).trans ih.closed
    · exact fun j began' k hj => ih.looking j began' k (receiving_of_dropReceive hi hj)
  · exact fun t ms ih => ⟨ih.closed, ih.locks, ih.looking⟩
  · exact fun t locks hp ih =>
      ⟨ih.closed, fun l hl => ih.locks l (hp.mem_iff.mp hl), ih.looking⟩

/-- A receive has checked that its receiver is open; then the receiver is closed, and
the receive goes on. -/
def caughtByClose : List Move := [
  .begin (.createReceiver "orders"), .advance 0, .advance 0,
  .begin (.send "orders" [1] {}), .advance 1, .advance 1, .advance 1,
  .begin (.receive ⟨0, "orders"⟩ 1 .zero), .advance 2, .advance 2, .advance 2,
  .begin (.close ⟨0, "orders"⟩), .advance 3, .advance 3, .advance 3,
  .advance 2]

theorem locked_after_close : (run {} caughtByClose).any fun s =>
    !s.broker.isOpen ⟨0, "orders"⟩ && s.broker.closedReceivers = 1 &&
      s.broker.locks.map (·.receiver) = [0] := by
  decide

end Traffic

end PeekLock.Broker
