import PeekLock.Proofs.Consumer.Custody
import PeekLock.Proofs.Pool.Headcount

/-!
# PeekLock.Proofs.Consumer.Headcount

The number of active workers of a consumer.

The pool of every crew counts its workers right, through every start and
stop (`Reachable.accurate`).  But a consumer asks the crew in its slot, and a
stop takes the crew out of the slot before it waits for the workers.  So the
number is that of the workers at work until then, and zero from then on, with
workers at work or not.
-/

namespace PeekLock.Consumer

/-- The number of workers of any crew that were started and have not ended. -/
def workersAtWork (c : Consumer) : Nat := (c.crews.map (·.pool.atWork.length)).sum

/-- Workers that are started one after the other are all counted. -/
theorem accurate_hire (n : Nat) {p : Pool} (h : p.Accurate) : (hire n p).Accurate := by
  induction n generalizing p with
  | zero => exact h
  | succ n ih => exact ih h.spawn

theorem isAtWork_iff {c : Consumer} {crew worker : Nat} :
    c.isAtWork crew worker = true ↔
      crew < c.crews.length ∧ (c.crew crew).pool.isAtWork worker = true := by
  simp only [isAtWork, Pool.isAtWork, Bool.and_eq_true, decide_eq_true_eq, and_assoc]

/-- The pools of all crews count right. -/
def Accurate (c : Consumer) : Prop := ∀ x ∈ c.crews, x.pool.Accurate

theorem Accurate.crew {c : Consumer} (h : c.Accurate) (n : Nat) : (c.crew n).pool.Accurate := by
  rw [Consumer.crew, List.getD_eq_getElem?_getD]
  cases hn : c.crews[n]? with
  | none => exact Pool.accurate_empty
  | some x => exact h x (List.mem_of_getElem? hn)

/-- What is put in place of a pool counts right too. -/
theorem Accurate.setPool {c : Consumer} (h : c.Accurate) (n : Nat) {pool : Pool}
    (hp : pool.Accurate) : (c.setPool n pool).Accurate := by
  intro x hx
  obtain hx | rfl := List.mem_or_eq_of_mem_set hx
  · exact h x hx
  · exact hp

theorem Turn.accurate {now : Nat} {c c' : Consumer} {k : Call} {p : Progress Call Outcome}
    (ht : Turn now c k c' p) (h : c.Accurate) : c'.Accurate := by
  cases ht with
  | hires caller =>
    intro x hx
    obtain hx | hx := List.mem_append.mp hx
    · exact h x hx
    · obtain rfl := List.mem_singleton.mp hx
      exact accurate_hire _ Pool.accurate_empty
  | cancels n => exact h.setPool n ((h.crew n).of_eq rfl rfl rfl)
  | _ => exact h

namespace Life

variable {settings : ConsumerSettings} {s t : Life}

theorem Reachable.accurate (h : s.Reachable settings) : s.consumer.Accurate := by
  obtain ⟨receiver, h⟩ := h
  refine h.invariant (P := fun s => s.consumer.Accurate) ?_ ?_ ?_ ?_ ?_
  · intro x hx
    cases hx
  · exact fun _ _ ih => ih
  · exact fun _ _ _ _ _ _ _ _ hturn ih => hturn.accurate ih
  · exact fun _ crew worker how hw ih =>
      ih.setPool crew ((ih.crew crew).finish (isAtWork_iff.mp hw).2 how)
  · exact fun _ _ ih => ih

/-- A stop has taken whatever was in the slot. -/
def Emptied (s : Life) : Prop := 0 < s.count hasEmptied ∨ s.consumer.phase = .stopped

/-- It never comes back. -/
theorem Leads.emptied (h : s.Leads t) (hs : s.Emptied) : t.Emptied := by
  refine h.invariant (P := Emptied) hs ?_ ?_ ?_ ?_
  · intro u q hu
    rw [Emptied, count_accept (by cases q <;> rfl)]
    exact hu
  · exact fun _ _ _ _ _ _ _ hi hturn hu => emptied_of_turn hi hturn hu
  · exact fun _ _ _ _ _ hu => hu
  · exact fun _ _ hu => hu

theorem workersAtWork_of_crews {c : Consumer} {x : Crew} (h : c.crews = [x]) :
    c.workersAtWork = x.pool.atWork.length := by
  rw [workersAtWork, h, List.map_singleton, List.sum_singleton]

/-- A stop that comes to the slot leaves the workers alone. -/
theorem workersAtWork_of_locking {q : Request} {d : Option Duration} {i : Nat}
    (hi : s.calls[i]? = some ⟨q, .on (.stopping (.locking d))⟩)
    (hm : s.after (.advance i) = some t) :
    t.Emptied ∧ t.consumer.workersAtWork = s.consumer.workersAtWork := by
  obtain ⟨c, p, hturn, rfl⟩ := turn_of_advance hi hm
  cases hturn with
  | findsNone => exact ⟨.inl (count_pos (getElem?_resume hi) rfl), rfl⟩
  | takes => exact ⟨.inl (count_pos (getElem?_resume hi) rfl), rfl⟩

/-- Until a stop has emptied the slot, whatever crew there is is in it. -/
theorem Reachable.activeWorkers_eq (h : s.Reachable settings) (hs : ¬ s.Emptied) :
    s.consumer.activeWorkers = s.consumer.workersAtWork := by
  cases h.custody with
  | none hc hslot =>
    rw [activeWorkers, hslot, workersAtWork, hc]
    rfl
  | inSlot x hc _ hslot =>
    have hx : x.pool.Accurate := h.accurate x (by rw [hc]; exact List.mem_singleton_self x)
    rw [workersAtWork_of_crews hc, ← hx.active, activeWorkers, hslot, Option.elim_some,
      crew_zero hc]
  | taken _ _ _ _ he => exact absurd he hs

theorem Reachable.activeWorkers_eq_zero (h : s.Reachable settings) (hs : s.Emptied) :
    s.consumer.activeWorkers = 0 := by
  cases h.custody with
  | none _ hslot =>
    rw [activeWorkers, hslot]
    rfl
  | inSlot _ _ _ _ _ he hp =>
    obtain hpos | hstopped := hs
    · omega
    · exact absurd hstopped hp
  | taken _ _ _ hslot =>
    rw [activeWorkers, hslot]
    rfl

/-- What a consumer tells about its workers. -/
structure Headcount (s : Life) : Prop where
  /-- The pool of every crew knows how many of its workers have not ended. -/
  counted : ∀ x ∈ s.consumer.crews, x.pool.active = x.pool.atWork.length
  /-- The consumer tells how many there are until a stop has emptied the slot. -/
  shown : ¬ s.Emptied → s.consumer.activeWorkers = s.consumer.workersAtWork
  /-- From then on it tells that there are none. -/
  hidden : s.Emptied → s.consumer.activeWorkers = 0
  /-- So it is right before that, or where there are none. -/
  right : s.consumer.activeWorkers = s.consumer.workersAtWork ↔
    ¬ s.Emptied ∨ s.consumer.workersAtWork = 0
  forGood : s.Emptied → ∀ t, s.Leads t → t.Emptied
  /-- A stop empties the slot when it comes there, before any worker has to end. -/
  emptied : ∀ (i : Nat) q d t, s.calls[i]? = some ⟨q, .on (.stopping (.locking d))⟩ →
    s.after (.advance i) = some t →
      t.Emptied ∧ t.consumer.workersAtWork = s.consumer.workersAtWork
  /-- The stop that waits for the crew has the right number at hand. -/
  draining : ∀ (i : Nat) q n wait d,
    s.calls[i]? = some ⟨q, .on (.stopping (.draining n wait d))⟩ →
      s.Emptied ∧ (s.consumer.crew n).pool.active = s.consumer.workersAtWork

/-- **The headcount of a consumer**, whatever starts and stops come and whatever the
workers do. -/
theorem Reachable.headcount (h : s.Reachable settings) : s.Headcount where
  counted x hx := (h.accurate x hx).active
  shown := h.activeWorkers_eq
  hidden := h.activeWorkers_eq_zero
  right := by
    by_cases hs : s.Emptied
    · rw [h.activeWorkers_eq_zero hs, or_iff_right (not_not_intro hs), eq_comm]
    · exact iff_of_true (h.activeWorkers_eq hs) (.inl hs)
  forGood hs t ht := ht.emptied hs
  emptied i q d t hi hm := workersAtWork_of_locking hi hm
  draining i q n wait d hi := by
    obtain ⟨rfl, -, x, hc, -⟩ := h.custody.of_draining hi
    have hx : x.pool.Accurate := h.accurate x (by rw [hc]; exact List.mem_singleton_self x)
    exact ⟨.inl (count_pos hi rfl), by rw [crew_zero hc, workersAtWork_of_crews hc, hx.active]⟩

/-- Three workers; one returns and one panics before a stop takes the crew. -/
def twoGone : List Move := [
  .begin (.start "main"), .advance 0, .advance 0, .advance 0,
  .finish 0 0 .returned, .finish 0 2 (.panicked "broken"),
  .begin (.stop (some (.ofMillis 50))), .advance 1]

theorem headcount_twoGone : ∃ s, run (new { ConsumerSettings.ofEntity "orders" with
      workers := 3 } 0) twoGone = some s ∧
    s.consumer.phase = .stopping ∧ s.consumer.activeWorkers = 1 ∧
    s.consumer.workersAtWork = 1 ∧ s.Headcount := by
  have hrun : ∃ s, run (new { ConsumerSettings.ofEntity "orders" with workers := 3 } 0)
        twoGone = some s ∧
      s.consumer.phase = .stopping ∧ s.consumer.activeWorkers = 1 ∧
      s.consumer.workersAtWork = 1 :=
    ⟨_, rfl, rfl, rfl, rfl⟩
  obtain ⟨s, hs, hphase, hactive, hwork⟩ := hrun
  exact ⟨s, hs, hphase, hactive, hwork, Reachable.headcount ⟨0, leads_of_run hs⟩⟩

/-- A worker that never ends: a stop takes its crew and waits for it. -/
def untilWaiting : List Move := [
  .begin (.start "main"), .advance 0, .advance 0, .advance 0,
  .begin (.stop (some (.ofMillis 50))), .advance 1, .advance 1, .advance 1]

/-- The stop gives up, and the close of the receiver returns. -/
def untilGivenUp : List Move := [.wait 50, .advance 1, .answer 1 (.ok ()), .advance 1]

theorem hidden_atWork : ∃ s t, run (new (.ofEntity "orders") 0) untilWaiting = some s ∧
    s.consumer.activeWorkers = 0 ∧ s.consumer.workersAtWork = 1 ∧
    s.run untilGivenUp = some t ∧ t.calls[1]? =
      some ⟨.stop (some (.ofMillis 50)), .done (.stopped (.ok ()))⟩ ∧
    t.consumer.phase = .stopped ∧ t.consumer.activeWorkers = 0 ∧ t.consumer.workersAtWork = 1 :=
  ⟨_, _, rfl, rfl, rfl, rfl, rfl, rfl, rfl, rfl⟩

end Life

end PeekLock.Consumer
