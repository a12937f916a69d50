import PeekLock.Proofs.Broker.Drops
import PeekLock.Proofs.Consumer.Staff

/-!
# PeekLock.Proofs.Consumer.Interruptions

What a worker loses when its receive is interrupted.

A worker whose caller cancels drops its receive, whatever may just arrive
for it.  It has received nothing by that, and so it has lost nothing: the
messages wait where they were, and every one that is locked was handed to
a worker (`dropsNothing_of_run`).
-/

namespace PeekLock

open Broker (Traffic Move)
open Identifier (counting)

/-- A worker that is interrupted drops the receive that it waits for, and nothing is delivered by
that. -/
theorem Workshop.drops_of_interrupt {w w' : Workshop} {k : Nat}
    (h : w.after (.interrupt k) = some w') : ∃ p i, w.posts[k]? = some p ∧
      p.errand = .receiving i ∧ w.traffic.after (.drop i) = some w'.traffic ∧
        w'.deliveries = w.deliveries := by
  obtain ⟨p, hk, h⟩ := Option.bind_eq_some_iff.mp h
  unfold Workshop.interrupt at h
  split at h
  · next i hs he =>
    split at h
    · obtain ⟨t, ht, rfl⟩ := Option.map_eq_some_iff.mp h
      obtain ⟨stage, errand, -, -, htell⟩ :=
        enter_of_missed { w with traffic := t } k p Worker.interrupted hs
      rw [htell]
      exact ⟨p, i, hk, he, ht, rfl⟩
    · contradiction
  · contradiction

/-- **A dropped receive takes no message.**  This holds of every receive in every run of the bus,
and so of the receive of a worker that is interrupted there. -/
theorem dropsNothing_of_run {supply : Identifier.Supply} {moves : List Move} {s : Traffic}
    (h : Traffic.run (.start supply) moves = some s) :
    s.DropsNothing supply moves ∧ ∀ (w w' : Workshop) k, w.traffic = s →
      w.after (.interrupt k) = some w' → ∃ p i, w.posts[k]? = some p ∧ p.errand = .receiving i ∧
        s.after (.drop i) = some w'.traffic ∧
          w'.traffic.DropsNothing supply (moves ++ [.drop i]) ∧ w'.deliveries = w.deliveries := by
  refine ⟨Traffic.dropsNothing h, fun w w' k hw hm => ?_⟩
  obtain ⟨p, i, hk, he, hi, hd⟩ := Workshop.drops_of_interrupt hm
  rw [hw] at hi
  exact ⟨p, i, hk, he, hi, Traffic.dropsNothing (foldlM_concat.mpr ⟨s, h, hi⟩), hd⟩

/-- A message has arrived, and the receive of a worker is about to look for it. -/
def aboutToLook : List Move := [
  .begin (.createReceiver "orders"), .advance 0, .advance 0,
  .begin (.send "orders" [1] {}), .advance 1, .advance 1, .advance 1,
  .begin (.receive ⟨0, "orders"⟩ 10 (.ofSeconds 5)), .advance 2, .advance 2, .advance 2]

/-- So it comes about at work; then the caller cancels. -/
def cancelledAtWork : List Workshop.Move := [
  .ask (.send "orders" [1] {}), .carry 1, .carry 1, .carry 1,
  .request (.start "main"), .proceed 0, .proceed 0, .proceed 0,
  .work 0, .work 0, .work 0, .work 0, .work 0, .cancel "main"]

theorem dropsNothing_aboutToLook : ∃ s w w', Traffic.run {} aboutToLook = some s ∧
    Workshop.atTheQueue.run cancelledAtWork = some w ∧ w.traffic = s ∧
      w.after (.interrupt 0) = some w' ∧ (w'.traffic.broker.queue "orders").length = 1 ∧
        w'.traffic.broker.activeReceives = 0 ∧
          w'.traffic.DropsNothing counting (aboutToLook ++ [.drop 2]) := by
  have hrun : ∃ s w w', Traffic.run {} aboutToLook = some s ∧
      Workshop.atTheQueue.run cancelledAtWork = some w ∧ w.traffic = s ∧
        w.posts.map (·.errand) = [.receiving 2] ∧ w.after (.interrupt 0) = some w' ∧
          (w'.traffic.broker.queue "orders").length = 1 ∧
            w'.traffic.broker.activeReceives = 0 :=
    ⟨_, _, _, rfl, rfl, rfl, rfl, rfl, rfl, rfl⟩
  obtain ⟨s, w, w', hs, hw, htraffic, hposts, hinterrupt, hqueue, hactive⟩ := hrun
  obtain ⟨p, i, hk, he, -, hdrops, -⟩ := (dropsNothing_of_run hs).2 w w' 0 htraffic hinterrupt
  have hi : Errand.receiving i = .receiving 2 := by
    have hfirst := congrArg (·[0]?) hposts
    rw [List.getElem?_map, hk, Option.map_some, he] at hfirst
    exact Option.some.inj hfirst
  cases hi
  exact ⟨s, w, w', hs, hw, htraffic, hinterrupt, hqueue, hactive, hdrops⟩

end PeekLock
