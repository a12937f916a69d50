import PeekLock.Proofs.Consumer.Starts
import PeekLock.Proofs.Consumer.Stops

/-!
# PeekLock.Proofs.Consumer.Lifecycle

The life of a consumer under any number of starts and stops.

One start hires the crew, and every other is refused.  One stop moves the
consumer on to stopping; it alone calls the receiver's close, once, after
it has waited for the crew, and what the close returns is on record before
the consumer is stopped (`Lifecycle`).

A stop asks twice, and a start can come in between: such a stop returns
and the consumer runs (`running_after_stop`).  A stop that finds the
consumer started takes effect (`Leads.stop_takes_effect`).
-/

namespace PeekLock.Consumer.Life

variable {settings : ConsumerSettings} {s t : Life} {i : Nat}

/-- The workers that were started are those of one crew, if any. -/
theorem Reachable.staffed (h : s.Reachable settings) : s.consumer.crews = [] ∨
    ∃ x, s.consumer.crews = [x] ∧ x.pool.spawned = settings.normalized.workers := by
  rw [← h.settings]
  cases h.custody with
  | none hc => exact .inl hc
  | inSlot x hc hw => exact .inr ⟨x, hc, hw⟩
  | taken x hc hw => exact .inr ⟨x, hc, hw⟩

/-- **A stop takes effect** if the consumer was started when it began: when it has
returned, the consumer is stopping or stopped, for good. -/
theorem Leads.stop_takes_effect (h : s.Leads t) {q q' : Request} {d : Option Duration}
    {closed : Stop.Result} (hp : s.consumer.phase ≠ .created)
    (hi : s.calls[i]? = some ⟨q, .on (.stopping (.claimingRunning d))⟩)
    (ht : t.calls[i]? = some ⟨q', .done (.stopped closed)⟩) :
    Phase.stopping.rank ≤ t.consumer.phase.rank := by
  have hinv := h.invariant (P := fun t => t.consumer.phase ≠ .created ∧
    (t.calls[i]? = some ⟨q, .on (.stopping (.claimingRunning d))⟩ ∨
      Phase.stopping.rank ≤ t.consumer.phase.rank)) ⟨hp, .inl hi⟩ ?_ ?_ ?_ ?_
  · refine hinv.2.resolve_left fun hon => ?_
    rw [hon] at ht
    cases ht
  · exact fun u q ⟨hu, hc⟩ => ⟨hu, hc.imp_left getElem?_accept⟩
  · intro u j q' k c p _ hj hturn ⟨hu, hc⟩
    refine ⟨hturn.phase_ne_created hu, ?_⟩
    obtain hc | hc := hc
    · by_cases hji : j = i
      · subst hji
        rw [hc] at hj
        cases hj
        cases hturn with
        | claimsRunning => exact .inr (Nat.le_refl _)
        | missesRunning _ hr =>
          refine .inr ?_
          show Phase.stopping.rank ≤ u.consumer.phase.rank
          revert hu hr
          cases u.consumer.phase <;> decide
      · rw [getElem?_resume_ne hji]
        exact .inl hc
    · exact .inr (Nat.le_trans hc hturn.rank_le)
  · exact fun u crew worker how _ hu => hu
  · exact fun u ms hu => hu

/-- A stop asks whether the consumer runs; a start comes in between; the stop asks
whether the consumer was never started. -/
def tooEarly : List Move := [
  .begin (.stop none), .advance 0,
  .begin (.start "main"), .advance 1, .advance 1,
  .advance 0, .advance 0]

theorem running_after_stop : ∃ s, run (new (.ofEntity "orders") 0) tooEarly = some s ∧
    s.calls[0]? = some ⟨.stop none, .done (.stopped (.ok ()))⟩ ∧ s.consumer.phase = .running :=
  ⟨_, rfl, rfl, rfl⟩

end PeekLock.Consumer.Life
