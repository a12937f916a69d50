import PeekLock.Proofs.Broker.Refusals
import PeekLock.Proofs.Remote.Losses

/-!
# PeekLock.Proofs.FailedSettlements

What becomes of a lock whose settlement fails.

The two buses part ways here.  In memory a settlement that fails leaves the
lock, and the message can be settled later.  On the remote bus the lock is
gone with the first answer, good or bad, and whoever presents the token
again is told that it is lost (`lost_after_failure`).
-/

namespace PeekLock

open Identifier (counting)

/-- What becomes of a lock when it is to be settled, on either bus. -/
structure FailedSettlements (b : Broker.Traffic) (s : Remote.Traffic) : Prop where
  /-- In memory, a settlement that is left alone and fails changes nothing. -/
  unchanged : ∀ r ∈ b.receivers, ∀ token v, ∃ t, b.after (.begin (.settle r token v)) = some t ∧
    ∃ result u, Broker.Traffic.Alone b.calls.length (.settled result) t u ∧
      ∀ e, result = .error e → u.broker = b.broker
  /-- In memory, a lock stays as long as its receiver is open and no settlement succeeds, whatever
  else goes on; and then it can be settled, if no fault is set. -/
  kept : ∀ r ∈ b.receivers, ∀ token l, b.broker.lock? r token = some l → ∀ t, b.Leads t →
    t.broker.isOpen r = true → b.NoneSucceeds t token → t.broker.lock? r token = some l ∧
      ∀ v, Broker.Settle.fault? t.broker v = none → ∃ u w,
        t.after (.begin (.settle r token v)) = some u ∧
          Broker.Traffic.Alone t.calls.length (.settled (.ok ())) u w
  /-- On the remote bus, a message whose settlement was answered is not in stock any more, whatever
  the answer was; and whoever presents its token anew has lost it. -/
  lost : ∀ r, ∀ h ∈ s.client.stock r, ∀ t, s.Leads t → (t.client.receiver r).closed = false →
    ∀ (i : Nat) v result, s.calls.length ≤ i →
      t.calls[i]? = some ⟨.settle r h.token v, .done (.settled result)⟩ →
        (∀ x ∈ t.client.stock r, x.token ≠ h.token) ∧
          ∀ u, t.Leads u → (u.client.receiver r).closed = false → ∀ (j : Nat) v' o,
            t.calls.length ≤ j → u.calls[j]? = some ⟨.settle r h.token v', .done o⟩ →
              u.askingsBy j = [] ∧ o = .settled (.error (.lockLost h.token.text))

/-- **A failure keeps the lock in memory, and loses it on the remote bus**, in every order in which
calls can take turns. -/
theorem failedSettlements {b : Broker.Traffic} {s : Remote.Traffic} (hb : b.Reachable)
    (hs : s.Reachable) : FailedSettlements b s where
  unchanged r hr token v := by
    obtain ⟨t, ht, result, u, hu, ha⟩ := Broker.Traffic.answers hr token v
    exact ⟨t, ht, result, u, hu, fun e he => (ha.refused e he).2⟩
  kept r hr token l hl t ht ho hn := by
    obtain ⟨hmem, rfl, hid⟩ := Broker.mem_of_lock? hl
    have hkept := (hb.leads ht).lock?_of_mem (ht.mem_locks hb hmem hid ho hn) hid
    exact ⟨hkept, fun v hf =>
      Broker.Traffic.settles_of_lock? (ht.mem_receivers hr) hkept ho hf⟩
  lost r h hm t ht ho i v result hn hi := by
    obtain ⟨hh, rfl⟩ := hs.balanced.of_stock hm
    have hasked := ht.asked_of_answer hs hh ho hn hi
    refine ⟨(hs.leads ht).balanced.not_stock_of_asked hasked, fun u hu hou j v' o hj hdone => ?_⟩
    exact hu.lost_of_asked (hs.leads ht) hasked hou hj hdone

/-- A message is received in memory. -/
def lockedInMemory : List Broker.Move := [
  .begin (.createReceiver "orders"), .advance 0, .advance 0,
  .begin (.send "orders" [1] { messageId := some "a" }), .advance 1, .advance 1, .advance 1,
  .begin (.receive ⟨0, "orders"⟩ 1 .zero), .advance 2, .advance 2, .advance 2, .advance 2]

/-- A message is received on the remote bus. -/
def lockedRemotely : List Remote.Move := [
  .begin (.createReceiver "orders"), .advance 0, .advance 0, .advance 0,
  .arrange .empty (Table.empty.put "orders" [default]),
  .begin (.receive 0 1 default), .advance 1, .advance 1, .advance 1]

theorem failedSettlements_oneEach : ∃ b s, Broker.Traffic.run {} lockedInMemory = some b ∧
    Remote.Traffic.run {} lockedRemotely = some s ∧
    b.broker.locks.map (·.token) = [⟨counting.nth 0⟩] ∧
    (s.client.stock 0).map (·.token) = [Remote.lockToken counting 0 0] ∧ FailedSettlements b s := by
  have hmemory : (Broker.Traffic.run {} lockedInMemory).any fun b =>
      b.broker.locks.map (·.token) = [⟨counting.nth 0⟩] := by
    decide
  have hremote : (Remote.Traffic.run {} lockedRemotely).any fun s =>
      (s.client.stock 0).map (·.token) = [Remote.lockToken counting 0 0] := by
    decide +kernel
  obtain ⟨b, hb, hp⟩ := (Option.any_eq_true _ _).mp hmemory
  obtain ⟨s, hs, hq⟩ := (Option.any_eq_true _ _).mp hremote
  exact ⟨b, s, hb, hs, of_decide_eq_true hp, of_decide_eq_true hq,
    failedSettlements (Broker.Traffic.reachable_of_run hb) (Remote.Traffic.reachable_of_run hs)⟩

/-- The error that a settlement has ended with. -/
def Remote.Entry.settleError? : Remote.Entry → Option BusError
  | ⟨_, .done (.settled (.error e))⟩ => some e
  | _ => none

/-- The other side refuses to complete the message, and it is completed once more. -/
def refusedOnce : List Remote.Move := [
  .arrange (Table.empty.put "complete" [some "boom"]) .empty,
  .begin (.settle 0 (Remote.lockToken counting 0 0) .complete),
  .advance 2, .advance 2, .advance 2, .advance 2,
  .begin (.settle 0 (Remote.lockToken counting 0 0) .complete), .advance 3, .advance 3, .advance 3]

/-- A completion that fails loses the lock, although its receiver is open. -/
theorem lost_after_failure :
    ((Remote.Traffic.run {} lockedRemotely).bind fun s => s.run refusedOnce).any fun t =>
      (t.client.stock 0).map (·.token) = [] ∧ (t.client.receiver 0).closed = false ∧
        (t.calls.map Remote.Entry.settleError?) = [none, none, some (.completeFailed "boom"),
          some (.lockLost (Remote.lockToken counting 0 0).text)] := by
  decide +kernel

end PeekLock
