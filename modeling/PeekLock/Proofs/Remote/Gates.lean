import Mathlib.Data.List.Nodup
import PeekLock.Remote.Gate

/-!
# PeekLock.Proofs.Remote.Gates

Who is inside a gate, and who waits for it.

`Keeps` says that a gate knows some tickets and no others, that a sole
ticket is inside alone, and that nobody waits who might enter.  Drawing a
ticket and giving one back keep this, and nobody is put out.
-/

namespace PeekLock.Remote.Gate

/-! ## Letting in -/

/-- A sole ticket is inside alone. -/
def Proper (inside : List Ticket) : Prop := ∀ t ∈ inside, t.access = .sole → inside = [t]

theorem Proper.join {inside : List Ticket} {t : Ticket} (h : mayJoin inside t.access = true) :
    Proper (inside ++ [t]) := by
  intro u hu hs
  cases ha : t.access with
  | sole =>
    rw [ha] at h
    rw [List.isEmpty_iff.mp h] at hu ⊢
    rw [List.mem_singleton.mp hu]
    rfl
  | shared =>
    rw [ha] at h
    obtain hu | hu := List.mem_append.mp hu
    · have hshared := of_decide_eq_true (List.all_eq_true.mp h u hu)
      rw [hs] at hshared
      contradiction
    · rw [List.mem_singleton.mp hu, ha] at hs
      contradiction

/-- Letting in loses nobody, and keeps the order. -/
theorem letIn_append (inside line : List Ticket) :
    (letIn inside line).1 ++ (letIn inside line).2 = inside ++ line := by
  induction line generalizing inside with
  | nil => rfl
  | cons t rest ih =>
    rw [letIn]
    split
    · rw [ih, List.append_assoc]
      rfl
    · rfl

/-- Nobody is put out. -/
theorem subset_letIn (inside line : List Ticket) : inside ⊆ (letIn inside line).1 := by
  induction line generalizing inside with
  | nil => exact List.Subset.refl _
  | cons t rest ih =>
    rw [letIn]
    split
    · exact List.Subset.trans (List.subset_append_left _ _) (ih _)
    · exact List.Subset.refl _

theorem Proper.letIn {inside : List Ticket} (h : Proper inside) (line : List Ticket) :
    Proper (Gate.letIn inside line).1 := by
  induction line generalizing inside with
  | nil => exact h
  | cons t rest ih =>
    rw [Gate.letIn]
    split
    · next hj => exact ih (.join hj)
    · exact h

/-- Whoever is left in front may not enter. -/
theorem mayJoin_letIn {inside line rest : List Ticket} {t : Ticket}
    (h : (letIn inside line).2 = t :: rest) :
    mayJoin (letIn inside line).1 t.access = false := by
  induction line generalizing inside with
  | nil => contradiction
  | cons u more ih =>
    rw [letIn] at h ⊢
    split at h
    · next hj =>
      rw [if_pos hj]
      exact ih h
    · next hj =>
      rw [if_neg hj]
      cases h
      exact Bool.eq_false_iff.mpr hj

/-! ## The tickets of a gate -/

/-- A gate knows these tickets and no others. -/
structure Keeps (g : Gate) (tickets : List Ticket) : Prop where
  known : (g.inside ++ g.line).Perm tickets
  distinct : (tickets.map (·.number)).Nodup
  drawn : ∀ t ∈ tickets, t.number < g.drawn
  proper : Proper g.inside
  blocked : ∀ t rest, g.line = t :: rest → mayJoin g.inside t.access = false

theorem keeps_nil : ({} : Gate).Keeps [] where
  known := .refl _
  distinct := List.nodup_nil
  drawn := nofun
  proper := nofun
  blocked := nofun

theorem keeps_refill {g : Gate} {tickets : List Ticket}
    (known : (g.inside ++ g.line).Perm tickets) (distinct : (tickets.map (·.number)).Nodup)
    (drawn : ∀ t ∈ tickets, t.number < g.drawn) (proper : Proper g.inside) :
    g.refill.Keeps tickets where
  known := by
    rw [← letIn_append] at known
    exact known
  distinct := distinct
  drawn := drawn
  proper := proper.letIn _
  blocked _ _ h := mayJoin_letIn h

namespace Keeps

variable {g : Gate} {tickets : List Ticket} {t : Ticket}

theorem of_perm (h : g.Keeps tickets) {others : List Ticket} (hp : tickets.Perm others) :
    g.Keeps others where
  known := h.known.trans hp
  distinct := (hp.map _).nodup_iff.mp h.distinct
  drawn u hu := h.drawn u (hp.mem_iff.mpr hu)
  proper := h.proper
  blocked := h.blocked

theorem mem_of_inside (h : g.Keeps tickets) (ht : t ∈ g.inside) : t ∈ tickets :=
  h.known.mem_iff.mp (List.mem_append_left _ ht)

/-- Two tickets of one number are one. -/
theorem eq_of_number (h : g.Keeps tickets) {u : Ticket} (ht : t ∈ tickets) (hu : u ∈ tickets)
    (hn : t.number = u.number) : t = u :=
  List.inj_on_of_nodup_map h.distinct ht hu hn

/-- A ticket that is admitted is inside. -/
theorem inside_of_admits (h : g.Keeps tickets) (ht : t ∈ tickets)
    (ha : g.admits t.number = true) : t ∈ g.inside := by
  obtain ⟨u, hu, hn⟩ := List.any_eq_true.mp ha
  rw [← h.eq_of_number (h.mem_of_inside hu) ht (of_decide_eq_true hn)]
  exact hu

/-- Nobody else is inside with a sole ticket. -/
theorem eq_of_sole (h : g.Keeps tickets) {u : Ticket} (ht : t ∈ g.inside) (hs : t.access = .sole)
    (hu : u ∈ g.inside) : u = t := by
  rw [h.proper t ht hs] at hu
  exact List.mem_singleton.mp hu

/-- Nobody waits for a gate that nobody is inside. -/
theorem tickets_eq_nil (h : g.Keeps tickets) (hf : g.inside = []) : tickets = [] := by
  cases hl : g.line with
  | nil =>
    have hk := h.known
    rw [hf, hl] at hk
    exact hk.nil_eq.symm
  | cons u rest =>
    have hb := h.blocked u rest hl
    rw [hf] at hb
    cases ha : u.access <;> rw [ha] at hb <;> contradiction

theorem draw (h : g.Keeps tickets) (a : Access) :
    (g.draw a).2.Keeps (⟨g.drawn, a⟩ :: tickets) := by
  refine keeps_refill ?_ ?_ ?_ h.proper
  · rw [← List.append_assoc]
    exact (List.perm_append_singleton _ _).trans (h.known.cons _)
  · rw [List.map_cons, List.nodup_cons]
    refine ⟨fun hm => ?_, h.distinct⟩
    obtain ⟨u, hu, hn⟩ := List.mem_map.mp hm
    exact Nat.ne_of_lt (h.drawn u hu) hn
  · intro u hu
    obtain rfl | hu := List.mem_cons.mp hu
    · exact Nat.lt_succ_self _
    · exact Nat.lt_succ_of_lt (h.drawn u hu)

theorem leave (h : g.Keeps (t :: tickets)) : (g.leave t.number).Keeps tickets := by
  have hd := h.distinct
  rw [List.map_cons, List.nodup_cons] at hd
  refine keeps_refill ?_ hd.2 (fun u hu => h.drawn u (List.mem_cons_of_mem _ hu)) ?_
  · rw [← List.filter_append]
    refine (h.known.filter _).trans ?_
    rw [List.filter_cons_of_neg (by simp), List.filter_eq_self.mpr fun u hu => ?_]
    exact decide_eq_true fun hn => hd.1 (List.mem_map.mpr ⟨u, hu, hn⟩)
  · intro u hu hs
    obtain ⟨hm, hn⟩ := List.mem_filter.mp hu
    change g.inside.filter _ = [u]
    rw [h.proper u hm hs]
    exact List.filter_cons_of_pos hn

end Keeps

/-! ## Being inside -/

/-- Whoever is inside stays inside when a ticket is drawn. -/
theorem inside_draw {g : Gate} {t : Ticket} (h : t ∈ g.inside) (a : Access) :
    t ∈ (g.draw a).2.inside :=
  subset_letIn _ _ h

/-- Whoever is inside stays inside when another ticket is given back. -/
theorem inside_leave {g : Gate} {t : Ticket} {number : Nat} (h : t ∈ g.inside)
    (hn : t.number ≠ number) : t ∈ (g.leave number).inside :=
  subset_letIn _ _ (List.mem_filter.mpr ⟨h, decide_eq_true hn⟩)

/-- A ticket for a gate that nobody uses is inside at once. -/
theorem inside_draw_of_free {g : Gate} (h : g.Keeps []) (a : Access) :
    ⟨g.drawn, a⟩ ∈ (g.draw a).2.inside := by
  have hn := h.known.eq_nil
  rw [List.append_eq_nil_iff] at hn
  have hj : mayJoin [] a = true := by cases a <;> rfl
  change _ ∈ (letIn g.inside (g.line ++ [⟨g.drawn, a⟩])).1
  rw [hn.1, hn.2, List.nil_append, letIn, if_pos hj]
  exact List.mem_singleton_self _

end PeekLock.Remote.Gate
