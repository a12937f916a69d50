import PeekLock.Pool.Life

/-!
# PeekLock.Proofs.Pool.Headcount

The number of active workers of a pool.

The pool counts up when a worker is started and down when one ends, and
nothing else touches the number.  So it is the number of the workers at
work (`Accurate`), and it is positive whenever a worker can end: counting
down never starts from zero.
-/

namespace PeekLock.Pool

variable {p : Pool}

theorem isAtWork_iff {w : Nat} :
    p.isAtWork w = true ↔ w < p.spawned ∧ p.exits.get? w = none := by
  rw [isAtWork, Bool.and_eq_true, decide_eq_true_eq, Option.isNone_iff_eq_none]

theorem mem_atWork {w : Nat} : w ∈ p.atWork ↔ p.isAtWork w = true := by
  rw [atWork, List.mem_filter, List.mem_range]
  exact ⟨And.right, fun h => ⟨(isAtWork_iff.mp h).1, h⟩⟩

theorem nodup_atWork : p.atWork.Nodup := List.nodup_range.filter _

theorem haveEnded_iff {workers : List Nat} :
    p.haveEnded workers = true ↔ ∀ w ∈ workers, p.exits.get? w ≠ none := by
  simp only [haveEnded, List.all_eq_true, Option.isSome_iff_ne_none]

/-- The number of active workers is that of the workers at work, and only workers that
were started have ended. -/
structure Accurate (p : Pool) : Prop where
  active : p.active = p.atWork.length
  started : ∀ w, p.exits.get? w ≠ none → w < p.spawned

theorem accurate_empty : Accurate {} := ⟨rfl, fun w h => absurd (Table.get?_empty w) h⟩

/-- Neither the token nor the handles matter. -/
theorem Accurate.of_eq {q : Pool} (h : p.Accurate) (active : q.active = p.active)
    (spawned : q.spawned = p.spawned) (exits : q.exits = p.exits) : q.Accurate := by
  have hat : q.atWork = p.atWork := by
    unfold atWork isAtWork
    rw [spawned, exits]
  exact ⟨by rw [active, hat, h.active], by rw [spawned, exits]; exact h.started⟩

theorem Accurate.cancel (h : p.Accurate) : p.cancel.Accurate := h.of_eq rfl rfl rfl

/-- The next worker has not ended before it is started. -/
theorem Accurate.get?_spawned (h : p.Accurate) : p.exits.get? p.spawned = none :=
  Classical.not_not.mp fun hne => Nat.lt_irrefl _ (h.started _ hne)

/-- A worker that is started is at work from then on. -/
theorem Accurate.atWork_spawn (h : p.Accurate) : p.spawn.2.atWork = p.atWork ++ [p.spawned] := by
  have hold : ∀ w ∈ List.range p.spawned, p.spawn.2.isAtWork w = p.isAtWork w := by
    intro w hw
    have hlt := List.mem_range.mp hw
    simp [isAtWork, spawn, hlt, Nat.lt_succ_of_lt hlt]
  have hnew : p.spawn.2.isAtWork p.spawned = true :=
    isAtWork_iff.mpr ⟨Nat.lt_succ_self _, h.get?_spawned⟩
  rw [atWork, show p.spawn.2.spawned = p.spawned + 1 from rfl, List.range_succ,
    List.filter_append, List.filter_congr hold, List.filter_cons_of_pos hnew]
  rfl

theorem Accurate.spawn (h : p.Accurate) : p.spawn.2.Accurate where
  active := by
    rw [h.atWork_spawn, List.length_append, ← h.active]
    rfl
  started w hw := Nat.lt_succ_of_lt (h.started w hw)

/-- Who has ended is at work no more, and everybody else is as before. -/
theorem isAtWork_finish (worker : Nat) (how : Exit) (w : Nat) :
    (p.finish worker how).isAtWork w = (p.isAtWork w && w != worker) := by
  simp only [isAtWork, finish, Table.get?_put]
  by_cases hw : w = worker
  · simp [hw]
  · rw [if_neg hw, bne_iff_ne.mpr hw, Bool.and_true]
    rfl

theorem length_atWork_finish {worker : Nat} (hw : p.isAtWork worker = true) (how : Exit) :
    (p.finish worker how).atWork.length + 1 = p.atWork.length := by
  have hat : (p.finish worker how).atWork = p.atWork.erase worker := by
    rw [nodup_atWork.erase_eq_filter, atWork, atWork, List.filter_filter]
    refine List.filter_congr fun w _ => ?_
    rw [isAtWork_finish, Bool.and_comm]
  have hpos := List.length_pos_of_mem (mem_atWork.mpr hw)
  rw [hat, List.length_erase_of_mem (mem_atWork.mpr hw)]
  omega

/-- **Never below zero**: while a worker is at work, the number is positive. -/
theorem Accurate.active_finish (h : p.Accurate) {worker : Nat} (hw : p.isAtWork worker = true)
    (how : Exit) : (p.finish worker how).active + 1 = p.active := by
  have hpos := List.length_pos_of_mem (mem_atWork.mpr hw)
  rw [← h.active] at hpos
  exact Nat.succ_pred_eq_of_pos hpos

theorem Accurate.finish (h : p.Accurate) {worker : Nat} (hw : p.isAtWork worker = true)
    (how : Exit) : (p.finish worker how).Accurate where
  active := by
    have hactive := h.active_finish hw how
    have hlength := length_atWork_finish hw how
    have := h.active
    omega
  started w hne := by
    by_cases hww : w = worker
    · rw [hww]
      exact (isAtWork_iff.mp hw).1
    · refine h.started w ?_
      rwa [Pool.finish, Table.get?_put, if_neg hww] at hne

end PeekLock.Pool
