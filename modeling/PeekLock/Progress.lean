import PeekLock.Log

/-!
# PeekLock.Progress

Calls that take several steps.

A call is described by the points at which it can be suspended.  A step
leads from one point to the next, or to the result, and other calls may
take steps in between.
-/

namespace PeekLock

/-- How far a call has come. -/
inductive Progress (κ α : Type) where
  /-- It goes on from a point. -/
  | on (point : κ)
  /-- It is over. -/
  | done (result : α)

/-- What one step of a call leaves behind: the state, the records that were
written, and how far the call has come. -/
structure Step (σ κ α : Type) where
  state : σ
  logs : List LogRecord := []
  progress : Progress κ α

namespace Progress

/-- Changes what a call goes on from and what it results in. -/
def map {κ κ' α α' : Type} (point : κ → κ') (result : α → α') : Progress κ α → Progress κ' α'
  | .on k => .on (point k)
  | .done a => .done (result a)

theorem map_eq_on {κ κ' α α' : Type} {point : κ → κ'} {result : α → α'} {p : Progress κ α}
    {k' : κ'} (h : p.map point result = .on k') : ∃ k, p = .on k ∧ point k = k' := by
  cases p with
  | on k =>
    injection h with h
    exact ⟨k, rfl, h⟩
  | done a => cases h

theorem map_eq_done {κ κ' α α' : Type} {point : κ → κ'} {result : α → α'} {p : Progress κ α}
    {a' : α'} (h : p.map point result = .done a') : ∃ a, p = .done a ∧ result a = a' := by
  cases p with
  | on k => cases h
  | done a =>
    injection h with h
    exact ⟨a, rfl, h⟩

end Progress

/-- A step of a call that is part of another one. -/
def Step.map {σ κ κ' α α' : Type} (point : κ → κ') (result : α → α') (s : Step σ κ α) :
    Step σ κ' α' :=
  { state := s.state, logs := s.logs, progress := s.progress.map point result }

/-- What every move keeps, some moves keep, one after the other. -/
theorem keeps_of_foldlM {σ μ : Type} {after : σ → μ → Option σ} {P : σ → Prop} {s t : σ}
    {moves : List μ} (h : moves.foldlM after s = some t) (start : P s)
    (move : ∀ t m u, P t → after t m = some u → P u) : P t := by
  induction moves generalizing s with
  | nil =>
    cases h
    exact start
  | cons m rest ih =>
    rw [List.foldlM_cons] at h
    obtain ⟨u, hm, h⟩ := Option.bind_eq_some_iff.mp h
    exact ih h (move s m u start hm)

end PeekLock
