import PeekLock.Schedule

/-!
# PeekLock.Proofs.Schedule

A task that has the schedule to itself.

Where nothing else is to be done, a task that can always go on takes its
steps one after the other.  So what it leaves behind is what its steps
leave behind (`Solo`), and the schedule is empty again afterwards.
-/

namespace PeekLock

variable {σ τ : Type}

/-- A task that can always go on, starts nothing, and meets the condition in its last step, takes
so many steps from one shared value to another. -/
inductive Solo (b : Behaviour σ τ) (stop : σ → Bool) (now : Nat) : σ → τ → σ → Nat → Prop where
  | last {w w' : σ} {t : τ} (hw : stop w = false) (hr : b.isReady now w t = true)
    (hs : b.step now w t = ⟨w', none, []⟩) (he : stop w' = true) : Solo b stop now w t w' 1
  | step {w w' w'' : σ} {t t' : τ} {n : Nat} (hw : stop w = false)
    (hr : b.isReady now w t = true) (hs : b.step now w t = ⟨w', some t', []⟩)
    (h : Solo b stop now w' t' w'' n) : Solo b stop now w t w'' (n + 1)

namespace Solo

variable {b : Behaviour σ τ} {stop : σ → Bool} {now n : Nat} {w w' : σ} {t : τ}

theorem isReady (h : Solo b stop now w t w' n) : b.isReady now w t = true := by
  cases h with
  | last _ hr => exact hr
  | step _ hr => exact hr

theorem next_of_ends (hr : b.isReady now w t = true) (hs : b.step now w t = ⟨w', none, []⟩) :
    Schedule.next b none ⟨now, w, [t], []⟩ = some ⟨now, w', [], []⟩ := by
  simp only [Schedule.next, Schedule.turn, hr, hs, if_true]
  rfl

theorem next_of_goesOn {t' : τ} (hr : b.isReady now w t = true)
    (hs : b.step now w t = ⟨w', some t', []⟩) (hr' : b.isReady now w' t' = true) :
    Schedule.next b none ⟨now, w, [t], []⟩ = some ⟨now, w', [t'], []⟩ := by
  have hwake : Schedule.wake b ⟨now, w', [], []⟩ = ⟨now, w', [], []⟩ := rfl
  simp only [Schedule.next, Schedule.turn, hr, hs, if_true, Schedule.replace, hwake, hr']
  rfl

theorem runUntil (h : Solo b stop now w t w' n) {fuel : Nat} (hf : n ≤ fuel) :
    Schedule.runUntil b none stop fuel ⟨now, w, [t], []⟩ = ⟨now, w', [], []⟩ := by
  induction h generalizing fuel with
  | last hw hr hs he =>
    obtain ⟨fuel, rfl⟩ := Nat.exists_eq_add_of_le' hf
    simp only [Schedule.runUntil, hw, next_of_ends hr hs, Bool.false_eq_true, if_false]
    cases fuel with
    | zero => rfl
    | succ fuel => simp only [Schedule.runUntil, he, if_true]
  | step hw hr hs h ih =>
    obtain ⟨fuel, rfl⟩ := Nat.exists_eq_add_of_le' (Nat.le_trans (Nat.le_add_left 1 _) hf)
    simp only [Schedule.runUntil, hw, next_of_goesOn hr hs h.isReady, Bool.false_eq_true, if_false]
    exact ih (by omega)

/-- What a task that is carried out alone leaves behind. -/
theorem perform (h : Solo b stop now w t w' n) (hn : n ≤ Schedule.ample) :
    Schedule.perform b stop t ⟨now, w, [], []⟩ = ⟨now, w', [], []⟩ :=
  h.runUntil hn

end Solo

end PeekLock
