import Mathlib.Data.List.Induction
import Mathlib.Order.Bounds.Basic
import Mathlib.Order.MinMax
import PeekLock.Broker.Gauge
import PeekLock.Progress
import PeekLock.Proofs.Counting

/-!
# PeekLock.Proofs.Broker.Peaks

The peak of a number over a run.

Where every move brings the peak up to the number, the peak is the greatest
number that the run has come by (`isGreatest_of_foldlM`).

At a turnstile it is not every move that does so: a receive raises the
number in one operation and notes it in another.  What is on record in
between is the peak together with what is about to be noted; no number of
the run is greater than all of these, and each of them is a number of the
run (`Recorded`).  So the peak is right whenever nothing is about to be
noted, whatever was overtaken before.
-/

namespace PeekLock

section Runs

variable {σ μ : Type} {after : σ → μ → Option σ} {number peak : σ → Nat} {s t : σ}
  {moves : List μ} {m : μ}

/-- The numbers that a run has come by. -/
def numbersOver (after : σ → μ → Option σ) (number : σ → Nat) (s : σ) (moves : List μ) :
    Set Nat :=
  {n | ∃ front t, front <+: moves ∧ front.foldlM after s = some t ∧ number t = n}

/-- The last move of a run comes after the others. -/
theorem foldlM_concat : (moves ++ [m]).foldlM after s = some t ↔
    ∃ u, moves.foldlM after s = some u ∧ after u m = some t := by
  simp only [List.foldlM_append, List.foldlM_cons, List.foldlM_nil, bind_pure,
    Option.bind_eq_bind, Option.bind_eq_some_iff]

theorem numbersOver_nil : numbersOver after number s [] = {number s} := by
  ext n
  constructor
  · rintro ⟨front, t, hf, ht, rfl⟩
    rw [List.prefix_nil.mp hf] at ht
    cases ht
    rfl
  · rintro rfl
    exact ⟨[], s, List.prefix_rfl, rfl, rfl⟩

theorem numbersOver_concat (h : (moves ++ [m]).foldlM after s = some t) :
    numbersOver after number s (moves ++ [m]) =
      insert (number t) (numbersOver after number s moves) := by
  ext n
  constructor
  · rintro ⟨front, u, hf, hu, rfl⟩
    obtain rfl | hf := List.prefix_concat_iff.mp hf
    · rw [h] at hu
      cases hu
      exact .inl rfl
    · exact .inr ⟨front, u, hf, hu, rfl⟩
  · rintro (rfl | ⟨front, u, hf, hu, rfl⟩)
    · exact ⟨_, t, List.prefix_rfl, h, rfl⟩
    · exact ⟨front, u, hf.trans (List.prefix_append moves [m]), hu, rfl⟩

/-- The number that a run ends with is one of its numbers. -/
theorem mem_numbersOver (h : moves.foldlM after s = some t) :
    number t ∈ numbersOver after number s moves :=
  ⟨moves, t, List.prefix_rfl, h, rfl⟩

/-- **The peak of a run**: where every move brings the peak up to the number, it is the
greatest number that the run has come by. -/
theorem isGreatest_of_foldlM (start : peak s = number s)
    (move : ∀ (front : List μ) t m u, front.foldlM after s = some t → after t m = some u →
      peak u = max (number u) (peak t))
    (h : moves.foldlM after s = some t) :
    IsGreatest (numbersOver after number s moves) (peak t) := by
  induction moves using List.reverseRecOn generalizing t with
  | nil =>
    cases h
    rw [numbersOver_nil, start]
    exact isGreatest_singleton
  | append_singleton moves m ih =>
    obtain ⟨u, hu, hm⟩ := foldlM_concat.mp h
    rw [numbersOver_concat h, move moves u m t hu hm]
    exact (ih hu).insert _

end Runs

namespace Broker

/-! ## Turnstiles -/

namespace Turnstile

variable {s t : Turnstile} {moves : List Move} {m : Move}

/-- A receive is about to note a number. -/
def IsNoting (s : Turnstile) (reading : Nat) : Prop := .raised reading ∈ s.receives

/-- What a move can be. -/
theorem after_cases (h : s.after m = some t) :
    (m = .arrive ∧ t = { s with receives := s.receives ++ [.arriving] }) ∨
      ∃ i p gauge p', m = .advance i ∧ s.receives[i]? = some p ∧
        s.gauge.step p = some (gauge, p') ∧ t = ⟨gauge, s.receives.set i p'⟩ := by
  cases m with
  | arrive => exact .inl ⟨rfl, (Option.some.inj h).symm⟩
  | advance i =>
    obtain ⟨p, hp, h⟩ := Option.bind_eq_some_iff.mp h
    obtain ⟨⟨gauge, p'⟩, hg, h⟩ := Option.bind_eq_some_iff.mp h
    cases h
    exact .inr ⟨i, p, gauge, p', rfl, hp, hg, rfl⟩

/-- The number is that of the receives that have raised it and not lowered it. -/
theorem active_of_after (h : s.gauge.active = s.inside) (hm : s.after m = some t) :
    t.gauge.active = t.inside := by
  obtain ⟨-, rfl⟩ | ⟨i, p, g, p', -, hi, hg, rfl⟩ := after_cases hm
  · simpa [inside, Gauge.Point.isIn] using h
  · have hin := countP_set_add Gauge.Point.isIn hi p'
    rw [inside] at h ⊢
    cases p <;> cases hg <;>
      simp only [Gauge.Point.isIn, Bool.false_eq_true, if_true, if_false, Gauge.count,
        Gauge.raise, Gauge.note, Gauge.lower] at hin ⊢ <;> omega

theorem active_of_run (h : run {} moves = some s) : s.gauge.active = s.inside :=
  keeps_of_foldlM (P := fun s => s.gauge.active = s.inside) h rfl fun _ _ _ hs hm =>
    active_of_after hs hm

/-- Some numbers are on record: the peak and the numbers that are about to be noted are among
them, and none is greater than all of these. -/
structure Recorded (s : Turnstile) (numbers : Set Nat) : Prop where
  peak : s.gauge.peak ∈ numbers
  noting : ∀ n, s.IsNoting n → n ∈ numbers
  above : ∀ n ∈ numbers, n ≤ s.gauge.peak ∨ ∃ m, s.IsNoting m ∧ n ≤ m

namespace Recorded

variable {numbers : Set Nat}

/-- A number that is no greater than one on record changes nothing. -/
theorem insert_of_le (h : s.Recorded numbers) {n k : Nat} (hn : n ≤ k) (hk : k ∈ numbers) :
    s.Recorded (insert n numbers) where
  peak := .inr h.peak
  noting m hm := .inr (h.noting m hm)
  above m hm := by
    obtain rfl | hm := hm
    · exact (h.above k hk).imp hn.trans fun ⟨l, hl, hkl⟩ => ⟨l, hl, hn.trans hkl⟩
    · exact h.above m hm

/-- A receive goes on, and neither raises the number nor notes it. -/
theorem goOn (h : s.Recorded numbers) {i : Nat} {p : Gauge.Point}
    (hi : s.receives[i]? = some p) (hp : ∀ n, p ≠ .raised n) (g : Gauge)
    (hg : g.peak = s.gauge.peak) (p' : Gauge.Point) (hp' : ∀ n, p' ≠ .raised n) :
    Recorded ⟨g, s.receives.set i p'⟩ numbers where
  peak := hg ▸ h.peak
  noting n hn := by
    obtain hn | hn := List.mem_or_eq_of_mem_set hn
    · exact h.noting n hn
    · exact (hp' n hn.symm).elim
  above n hn := by
    refine (h.above n hn).imp (hg ▸ ·) fun ⟨m, hm, hnm⟩ => ⟨m, ?_, hnm⟩
    obtain ⟨j, hj⟩ := List.mem_iff_getElem?.mp hm
    have hij : i ≠ j := by
      rintro rfl
      exact hp m (Option.some.inj (hi.symm.trans hj))
    exact List.mem_of_getElem? ((List.getElem?_set_ne hij).trans hj)

/-- A receive raises the number, and is about to note it. -/
theorem raise (h : s.Recorded numbers) {i n : Nat} {g : Gauge}
    (hi : s.receives[i]? = some .counted) (hg : g.peak = s.gauge.peak) :
    Recorded ⟨g, s.receives.set i (.raised n)⟩ (insert n numbers) where
  peak := .inr (hg ▸ h.peak)
  noting m hm := by
    obtain hm | hm := List.mem_or_eq_of_mem_set hm
    · exact .inr (h.noting m hm)
    · exact .inl (Gauge.Point.raised.inj hm)
  above m hm := by
    obtain ⟨hlt, -⟩ := List.getElem?_eq_some_iff.mp hi
    obtain rfl | hm := hm
    · exact .inr ⟨m, List.mem_of_getElem? (List.getElem?_set_self hlt), Nat.le_refl m⟩
    · refine (h.above m hm).imp (hg ▸ ·) fun ⟨l, hl, hml⟩ => ⟨l, ?_, hml⟩
      obtain ⟨j, hj⟩ := List.mem_iff_getElem?.mp hl
      have hij : i ≠ j := by
        rintro rfl
        cases hi.symm.trans hj
      exact List.mem_of_getElem? ((List.getElem?_set_ne hij).trans hj)

/-- A receive notes what it has raised the number to. -/
theorem note (h : s.Recorded numbers) {i n : Nat} (hi : s.receives[i]? = some (.raised n)) :
    Recorded ⟨s.gauge.note n, s.receives.set i .inside⟩ numbers where
  peak := by
    have hn : n ∈ numbers := h.noting n (List.mem_of_getElem? hi)
    obtain hmax | hmax := max_choice s.gauge.peak n
    · exact (congrArg (· ∈ numbers) hmax).mpr h.peak
    · exact (congrArg (· ∈ numbers) hmax).mpr hn
  noting m hm := by
    obtain hm | hm := List.mem_or_eq_of_mem_set hm
    · exact h.noting m hm
    · cases hm
  above m hm := by
    obtain hle | ⟨l, hl, hml⟩ := h.above m hm
    · exact .inl (hle.trans (le_max_left _ n))
    · obtain ⟨j, hj⟩ := List.mem_iff_getElem?.mp hl
      by_cases hij : i = j
      · subst hij
        cases hi.symm.trans hj
        exact .inl (hml.trans (le_max_right _ n))
      · exact .inr ⟨l, List.mem_of_getElem? ((List.getElem?_set_ne hij).trans hj), hml⟩

/-- A move keeps the record, with the number that it leads to. -/
theorem after (h : s.Recorded numbers) (hs : s.inside ∈ numbers)
    (ha : s.gauge.active = s.inside) (hm : s.after m = some t) :
    t.Recorded (insert t.inside numbers) := by
  have hin := active_of_after ha hm
  obtain ⟨-, rfl⟩ | ⟨i, p, g, p', -, hi, hg, rfl⟩ := after_cases hm
  · have harrives : Recorded { s with receives := s.receives ++ [.arriving] } numbers := by
      refine ⟨h.peak, fun n hn => ?_, fun n hn => ?_⟩
      · obtain hn | hn := List.mem_append.mp hn
        · exact h.noting n hn
        · cases List.mem_singleton.mp hn
      · exact (h.above n hn).imp_right fun ⟨k, hk, hnk⟩ => ⟨k, List.mem_append_left _ hk, hnk⟩
    exact harrives.insert_of_le (by rw [← hin, ha]) hs
  · rw [← hin]
    cases p with
    | arriving =>
      cases hg
      exact (h.goOn hi nofun s.gauge.count rfl .counted nofun).insert_of_le (Nat.le_of_eq ha) hs
    | counted =>
      cases hg
      exact h.raise hi rfl
    | raised n =>
      cases hg
      exact (h.note hi).insert_of_le (Nat.le_of_eq ha) hs
    | inside =>
      cases hg
      have hle : s.gauge.active - 1 ≤ s.inside := (Nat.sub_le _ 1).trans (Nat.le_of_eq ha)
      exact (h.goOn hi nofun s.gauge.lower rfl .left nofun).insert_of_le hle hs
    | left => cases hg

end Recorded

/-- What is on record after a run are the numbers that it has come by. -/
theorem recorded_of_run (h : run {} moves = some s) :
    s.Recorded (numbersOver after inside {} moves) := by
  induction moves using List.reverseRecOn generalizing s with
  | nil =>
    cases h
    rw [numbersOver_nil]
    exact ⟨rfl, nofun, fun n hn => .inl (Nat.le_of_eq hn)⟩
  | append_singleton moves m ih =>
    obtain ⟨u, hu, hm⟩ := foldlM_concat.mp h
    rw [numbersOver_concat h]
    exact (ih hu).after (mem_numbersOver hu) (active_of_run hu) hm

/-- What a turnstile tells after some moves. -/
structure Tells (moves : List Move) (s : Turnstile) : Prop where
  /-- The number is that of the receives that have raised it and not lowered it. -/
  active : s.gauge.active = s.inside
  /-- Whoever lowers it finds it above zero. -/
  positive : ∀ i : Nat, s.receives[i]? = some Gauge.Point.inside → 0 < s.gauge.active
  /-- The peak is a number that was reached. -/
  reached : s.gauge.peak ∈ numbersOver after inside {} moves
  /-- Where nothing is about to be noted, none was greater. -/
  peak : (∀ n, ¬ s.IsNoting n) → IsGreatest (numbersOver after inside {} moves) s.gauge.peak

/-- **The peak at a turnstile**, in whatever order the operations come. -/
theorem tells_of_run (h : run {} moves = some s) : s.Tells moves where
  active := active_of_run h
  positive i hi := by
    rw [active_of_run h]
    exact List.countP_pos_iff.mpr ⟨_, List.mem_of_getElem? hi, rfl⟩
  reached := (recorded_of_run h).peak
  peak hn := by
    refine ⟨(recorded_of_run h).peak, fun n hmem => ?_⟩
    obtain hle | ⟨m, hm, -⟩ := (recorded_of_run h).above n hmem
    · exact hle
    · exact (hn m hm).elim

/-- Two receives have raised the number; the first to do so notes it last. -/
example : run {} [.arrive, .arrive, .advance 0, .advance 1, .advance 0, .advance 1, .advance 1,
    .advance 1, .advance 0] = some ⟨⟨2, 1, 2⟩, [.inside, .left]⟩ := by
  decide

end Turnstile

end Broker

end PeekLock
