import Mathlib.Algebra.GroupWithZero.Nat
import Mathlib.Data.List.Perm.Basic

/-!
# PeekLock.Proofs.Counting

Lists whose elements are replaced one at a time, and what that does to
their counts.

The calls on their way are such a list: a step of a call replaces its
entry, and an invariant that counts entries changes by those two.
-/

namespace PeekLock

/-- Replacing an element of a list changes a count by what the two count. -/
theorem countP_set_add {α : Type} (p : α → Bool) {l : List α} {i : Nat} {x : α}
    (h : l[i]? = some x) (y : α) :
    (l.set i y).countP p + (if p x then 1 else 0) = l.countP p + if p y then 1 else 0 := by
  induction l generalizing i with
  | nil => contradiction
  | cons a rest ih =>
    cases i with
    | zero =>
      rw [List.getElem?_cons_zero] at h
      injection h with h
      subst h
      rw [List.set_cons_zero, List.countP_cons, List.countP_cons]
      omega
    | succ i =>
      rw [List.getElem?_cons_succ] at h
      have := ih h
      rw [List.set_cons_succ, List.countP_cons, List.countP_cons]
      omega

/-- Replacing an element of a list changes a sum by what the two add. -/
theorem sum_map_set_add {α : Type} (f : α → Nat) {l : List α} {i : Nat} {x : α}
    (h : l[i]? = some x) (y : α) :
    ((l.set i y).map f).sum + f x = (l.map f).sum + f y := by
  induction l generalizing i with
  | nil => contradiction
  | cons a rest ih =>
    cases i with
    | zero =>
      rw [List.getElem?_cons_zero] at h
      injection h with h
      subst h
      rw [List.set_cons_zero, List.map_cons, List.map_cons, List.sum_cons, List.sum_cons]
      omega
    | succ i =>
      rw [List.getElem?_cons_succ] at h
      have := ih h
      rw [List.set_cons_succ, List.map_cons, List.map_cons, List.sum_cons, List.sum_cons]
      omega

/-- Replacing an element by one with the same image leaves the images. -/
theorem filterMap_set_of_eq {α β : Type} {f : α → Option β} {l : List α} {i : Nat} {x y : α}
    (h : l[i]? = some x) (hf : f y = f x) : (l.set i y).filterMap f = l.filterMap f := by
  induction l generalizing i with
  | nil => rfl
  | cons a rest ih =>
    cases i with
    | zero =>
      rw [List.getElem?_cons_zero] at h
      injection h with h
      rw [List.set_cons_zero, List.filterMap_cons, List.filterMap_cons, hf, h]
    | succ i =>
      rw [List.getElem?_cons_succ] at h
      rw [List.set_cons_succ, List.filterMap_cons, List.filterMap_cons, ih h]

theorem map_set_of_eq {α β : Type} {f : α → β} {l : List α} {i : Nat} {x y : α}
    (h : l[i]? = some x) (hf : f y = f x) : (l.set i y).map f = l.map f := by
  rw [← List.filterMap_eq_map]
  exact filterMap_set_of_eq h (congrArg some hf)

/-- Lists with the same images have an element in the same places. -/
theorem exists_getElem?_of_map_eq {α β : Type} {f : α → β} {l l' : List α}
    (h : l.map f = l'.map f) {i : Nat} {x : α} (hx : l[i]? = some x) :
    ∃ y, l'[i]? = some y ∧ f y = f x := by
  have hi := congrArg (·[i]?) h
  rw [List.getElem?_map, List.getElem?_map, hx] at hi
  exact Option.map_eq_some_iff.mp hi.symm

/-- Elements that contribute one or nothing are counted by whether they contribute. -/
theorem countP_flatMap {α β : Type} {f : α → List β} {p : β → Bool} {q : α → Bool}
    (h : ∀ x, (f x).countP p = if q x then 1 else 0) (l : List α) :
    (l.flatMap f).countP p = l.countP q := by
  induction l with
  | nil => rfl
  | cons a rest ih =>
    rw [List.flatMap_cons, List.countP_append, List.countP_cons, h, ih, Nat.add_comm]

/-- Replacing an element exchanges what the two contribute. -/
theorem perm_flatMap_set {α β : Type} (f : α → List β) {l : List α} {i : Nat} {x : α}
    (h : l[i]? = some x) (y : α) :
    ((l.set i y).flatMap f ++ f x).Perm (l.flatMap f ++ f y) := by
  induction l generalizing i with
  | nil => contradiction
  | cons a rest ih =>
    cases i with
    | zero =>
      rw [List.getElem?_cons_zero] at h
      injection h with h
      subst h
      rw [List.set_cons_zero, List.flatMap_cons, List.flatMap_cons, List.append_assoc,
        List.append_assoc]
      refine List.perm_append_comm.trans ?_
      rw [List.append_assoc]
      exact List.perm_append_comm_assoc _ _ _
    | succ i =>
      rw [List.getElem?_cons_succ] at h
      rw [List.set_cons_succ, List.flatMap_cons, List.flatMap_cons, List.append_assoc,
        List.append_assoc]
      exact (ih h).append_left _

/-- What an element contributes, and what all others do. -/
theorem perm_flatMap_eraseIdx {α β : Type} (f : α → List β) {l : List α} {i : Nat} {x : α}
    (h : l[i]? = some x) : (l.flatMap f).Perm (f x ++ (l.eraseIdx i).flatMap f) := by
  induction l generalizing i with
  | nil => contradiction
  | cons a rest ih =>
    cases i with
    | zero =>
      rw [List.getElem?_cons_zero] at h
      injection h with h
      subst h
      exact .refl _
    | succ i =>
      rw [List.getElem?_cons_succ] at h
      rw [List.flatMap_cons, List.eraseIdx_cons_succ, List.flatMap_cons]
      exact ((ih h).append_left _).trans (List.perm_append_comm_assoc _ _ _)

/-- Two lists that agree still do after the same exchange. -/
theorem perm_of_exchange {α : Type} {a a' b b' x y : List α} (h : a.Perm b)
    (ha : (a' ++ x).Perm (a ++ y)) (hb : (b' ++ x).Perm (b ++ y)) : a'.Perm b' :=
  (List.perm_append_right_iff x).mp (ha.trans ((h.append_right y).trans hb.symm))

/-- What is in one of three places still is after more has come in and was moved on. -/
theorem perm_carry {α : Type} {all kept out lost more kept' out' lost' : List α}
    (h : all.Perm (kept ++ out ++ lost)) (hm : (kept ++ more).Perm (kept' ++ out' ++ lost')) :
    (all ++ more).Perm (kept' ++ (out ++ out') ++ (lost ++ lost')) := by
  classical
  refine List.perm_iff_count.mpr fun x => ?_
  have hx := List.perm_iff_count.mp h x
  have hmx := List.perm_iff_count.mp hm x
  simp only [List.count_append] at hx hmx ⊢
  omega

/-- Where at most one element counts, it is in one place. -/
theorem eq_of_countP_le_one {α : Type} {p : α → Bool} {l : List α} (h : l.countP p ≤ 1)
    {i j : Nat} {x y : α} (hi : l[i]? = some x) (hx : p x = true) (hj : l[j]? = some y)
    (hy : p y = true) : i = j := by
  induction l generalizing i j with
  | nil => contradiction
  | cons a rest ih =>
    rw [List.countP_cons] at h
    have hpos {n : Nat} {z : α} (hn : rest[n]? = some z) (hz : p z = true) :
        0 < rest.countP p :=
      List.countP_pos_iff.mpr ⟨z, List.mem_of_getElem? hn, hz⟩
    cases i with
    | zero =>
      cases j with
      | zero => rfl
      | succ j =>
        rw [List.getElem?_cons_zero] at hi
        rw [List.getElem?_cons_succ] at hj
        cases hi
        rw [if_pos hx] at h
        have := hpos hj hy
        omega
    | succ i =>
      rw [List.getElem?_cons_succ] at hi
      cases j with
      | zero =>
        rw [List.getElem?_cons_zero] at hj
        cases hj
        rw [if_pos hy] at h
        have := hpos hi hx
        omega
      | succ j =>
        rw [List.getElem?_cons_succ] at hj
        have hle : rest.countP p ≤ 1 := by omega
        exact congrArg (· + 1) (ih hle hi hj)

/-- Where at most one element counts, no other does. -/
theorem eq_of_mem_of_countP_le_one {α : Type} {p : α → Bool} {l : List α} (h : l.countP p ≤ 1)
    {x y : α} (hx : x ∈ l) (hpx : p x = true) (hy : y ∈ l) (hpy : p y = true) : x = y := by
  obtain ⟨i, hi⟩ := List.mem_iff_getElem?.mp hx
  obtain ⟨j, hj⟩ := List.mem_iff_getElem?.mp hy
  have hij : i = j := eq_of_countP_le_one h hi hpx hj hpy
  rw [hij, hj] at hi
  exact (Option.some.inj hi).symm

/-- An element of a list with distinct keys, and all others. -/
theorem perm_cons_filter_ne {α κ : Type} [DecidableEq κ] {f : α → κ} {l : List α} {x : α}
    (hd : (l.map f).Nodup) (hx : x ∈ l) : l.Perm (x :: l.filter (f · ≠ f x)) := by
  induction l with
  | nil => contradiction
  | cons a rest ih =>
    rw [List.map_cons, List.nodup_cons] at hd
    by_cases ha : f a = f x
    · have hrest : ∀ y ∈ rest, f y ≠ f x := fun y hy he =>
        hd.1 (List.mem_map.mpr ⟨y, hy, he.trans ha.symm⟩)
      obtain rfl | hx := List.mem_cons.mp hx
      · rw [List.filter_cons_of_neg (by simp),
          List.filter_eq_self.mpr fun y hy => decide_eq_true (hrest y hy)]
      · exact (hrest x hx rfl).elim
    · obtain rfl | hx := List.mem_cons.mp hx
      · exact (ha rfl).elim
      · rw [List.filter_cons_of_pos (by simpa using ha)]
        exact ((ih hd.2 hx).cons a).trans (.swap _ _ _)

/-- With distinct keys, a key belongs to one element. -/
theorem filter_eq_singleton {α κ : Type} [DecidableEq κ] {f : α → κ} {l : List α} {x : α}
    (hd : (l.map f).Nodup) (hx : x ∈ l) : l.filter (f · = f x) = [x] := by
  have hothers : l.filter (fun y => decide (f y = f x) && decide (f y ≠ f x)) = [] :=
    List.filter_eq_nil_iff.mpr fun y _ => by simp
  have hp := (perm_cons_filter_ne hd hx).filter (f · = f x)
  rw [List.filter_cons_of_pos (by simp), List.filter_filter, hothers] at hp
  exact hp.eq_singleton

/-- Two conditions that agree on all elements but one count alike, but for that one. -/
theorem countP_add_of_agree {α : Type} {p q : α → Bool} {l : List α} {i : Nat} {x : α}
    (hi : l[i]? = some x) (h : ∀ j y, l[j]? = some y → j ≠ i → p y = q y) :
    l.countP p + (if q x then 1 else 0) = l.countP q + if p x then 1 else 0 := by
  induction l generalizing i with
  | nil => contradiction
  | cons a rest ih =>
    cases i with
    | zero =>
      cases hi
      have hrest : rest.countP p = rest.countP q := List.countP_congr fun y hy => by
        obtain ⟨j, hj⟩ := List.mem_iff_getElem?.mp hy
        rw [h (j + 1) y hj (Nat.succ_ne_zero j)]
      rw [List.countP_cons, List.countP_cons, hrest]
      omega
    | succ i =>
      have hrest := ih hi fun j y hj hij => h (j + 1) y hj fun he => hij (Nat.succ.inj he)
      rw [List.countP_cons, List.countP_cons, h 0 a rfl (Nat.succ_ne_zero i).symm]
      omega

/-- Two conditions that exclude each other count what one of them counts. -/
theorem countP_add_countP {α : Type} {p q : α → Bool} {l : List α}
    (h : ∀ x ∈ l, p x = true → q x = false) :
    l.countP p + l.countP q = l.countP fun x => p x || q x := by
  induction l with
  | nil => rfl
  | cons a rest ih =>
    have hrest := ih fun x hx => h x (List.mem_cons_of_mem _ hx)
    have ha := h a List.mem_cons_self
    rw [List.countP_cons, List.countP_cons, List.countP_cons, ← hrest]
    cases hp : p a with
    | false =>
      simp only [Bool.false_or, Bool.false_eq_true, if_false]
      omega
    | true =>
      simp only [ha hp, Bool.true_or, Bool.false_eq_true, if_false, if_true]
      omega

end PeekLock
