import Mathlib.Data.List.Nodup
import PeekLock.Proofs.Broker.Census

/-!
# PeekLock.Proofs.Broker.Conservation

No copy is lost, and none is doubled.

Copies are moved by the steps of calls, and by nothing else
(`Traffic.advances_or_rests`).  The arrivals number the copies, and every
copy that is found anywhere goes back to one of them: to its entity, and to
its content.  With that, the balance of an arrival and its completions are
one together, in every traffic that can be reached (`Ledger`).
-/

namespace PeekLock

open Identifier (counting)

/-- Two messages agree in everything that a delivery leaves alone. -/
structure Message.SameContent (m k : Message) : Prop where
  id : m.id = k.id
  body : m.body = k.body
  contentType : m.contentType = k.contentType
  properties : m.properties = k.properties
  enqueuedAt : m.enqueuedAt = k.enqueuedAt

/-- One copy is what deliveries have made of the other. -/
structure Copy.Continues (c d : Copy) : Prop where
  serial : c.serial = d.serial
  content : c.message.SameContent d.message

namespace Copy.Continues

theorem refl (c : Copy) : c.Continues c := ⟨rfl, rfl, rfl, rfl, rfl, rfl⟩

theorem handOut (c : Copy) (token : LockToken) : (c.handOut token).Continues c :=
  ⟨rfl, rfl, rfl, rfl, rfl, rfl⟩

theorem trans {a b c : Copy} (h : a.Continues b) (k : b.Continues c) : a.Continues c where
  serial := h.serial.trans k.serial
  content :=
    { id := h.content.id.trans k.content.id
      body := h.content.body.trans k.content.body
      contentType := h.content.contentType.trans k.content.contentType
      properties := h.content.properties.trans k.content.properties
      enqueuedAt := h.content.enqueuedAt.trans k.content.enqueuedAt }

end Copy.Continues

namespace Broker

namespace Traffic

/-! ## Moves -/

theorem hands_accept (s : Traffic) (q : Request) : (s.accept q).hands = s.hands := by
  have hq : Entry.held? ⟨s.now, .on q.call⟩ = none := by cases q <;> rfl
  simp only [hands, Traffic.accept, List.filterMap_append, List.filterMap_cons, hq,
    List.filterMap_nil, List.append_nil]

theorem hands_dropReceive {s : Traffic} {i began : Nat} {c : Receive}
    (hi : s.calls[i]? = some ⟨began, .on (.receiving c)⟩) :
    (s.dropReceive i began c).hands = s.hands :=
  filterMap_set_of_eq hi rfl

/-- From one traffic to another no copy is moved. -/
structure Rests (s t : Traffic) : Prop where
  broker : KeepsCopies s.broker t.broker
  hands : t.hands = s.hands
  arrivals : t.arrivals = s.arrivals

/-- Every move is a step of a call, or it moves no copy. -/
theorem advances_or_rests {s t : Traffic} {m : Move} (hm : s.after m = some t) :
    (∃ i began c, m = .advance i ∧ s.calls[i]? = some ⟨began, .on c⟩ ∧
      t = s.advance i began c) ∨ (s.Rests t ∧ s.deliveries m = []) := by
  obtain ⟨q, rfl, -, rfl⟩ | ⟨i, began, c, rfl, hi, -, rfl⟩ | ⟨i, began, c, rfl, hi, rfl⟩ |
    ⟨ms, rfl, rfl⟩ | ⟨locks, rfl, hp, rfl⟩ := after_cases hm
  · exact .inr ⟨⟨.refl _, hands_accept s q, rfl⟩, rfl⟩
  · exact .inl ⟨i, began, c, rfl, hi, rfl⟩
  · exact .inr ⟨⟨c.drop_keepsCopies s.broker, hands_dropReceive hi, rfl⟩, rfl⟩
  · exact .inr ⟨⟨.refl _, rfl, rfl⟩, rfl⟩
  · exact .inr ⟨⟨⟨fun _ => rfl, hp, rfl, rfl, rfl, rfl, Nat.le_refl _⟩, rfl, rfl⟩, rfl⟩

theorem supply_advance (s : Traffic) (i began : Nat) (c : Call) :
    (s.advance i began c).broker.supply = s.broker.supply :=
  (c.step_keepsCopies s.now s.broker).supply.trans (supply_apply _ _)

/-- Identifiers come from one supply all the time. -/
theorem Leads.supply {s t : Traffic} (h : s.Leads t) : t.broker.supply = s.broker.supply := by
  induction h with
  | refl => rfl
  | step _ hm ih =>
    obtain ⟨i, began, c, -, -, rfl⟩ | ⟨hrests, -⟩ := advances_or_rests hm
    · exact (supply_advance _ i began c).trans ih
    · exact hrests.broker.supply.trans ih

/-! ## The whereabouts of copies -/

/-- A copy of an entity that is not done with is somewhere. -/
inductive Has (s : Traffic) (e : String) (c : Copy) : Prop where
  | waiting (h : c ∈ s.broker.queue e)
  | locked (l : Lock) (h : l ∈ s.broker.locks) (he : l.entity = e) (hc : l.copy = c)
  | inHands (l : Lock) (h : l ∈ s.hands) (he : l.entity = e) (hc : l.copy = c)

/-- Where the balance is not zero, there is the copy. -/
theorem has_of_balance_pos {s : Traffic} {e : String} {n : Nat} (h : 0 < s.balance e n) :
    ∃ c, s.Has e c ∧ c.serial = n := by
  have isOn {l : Lock} (hl : l.isOn e n) : l.entity = e ∧ l.copy.serial = n := by
    simpa [Lock.isOn] using hl
  have hcases : 0 < s.broker.waiting e n ∨ 0 < s.broker.locked e n ∨ 0 < s.inHands e n := by
    unfold balance at h
    omega
  obtain hw | hl | hh := hcases
  · obtain ⟨c, hc, hn⟩ := List.countP_pos_iff.mp hw
    exact ⟨c, .waiting hc, of_decide_eq_true hn⟩
  · obtain ⟨l, hl, hn⟩ := List.countP_pos_iff.mp hl
    exact ⟨l.copy, .locked l hl (isOn hn).1 rfl, (isOn hn).2⟩
  · obtain ⟨l, hl, hn⟩ := List.countP_pos_iff.mp hh
    exact ⟨l.copy, .inHands l hl (isOn hn).1 rfl, (isOn hn).2⟩

/-- What a call puts down was in its hands. -/
theorem has_of_putsDown? {s : Traffic} {i began : Nat} {c : Call} {l : Lock}
    (hi : s.calls[i]? = some ⟨began, .on c⟩) (h : (c.transfer s.broker).putsDown? = some l) :
    s.Has l.entity l.copy := by
  rw [← c.held?_eq_putsDown? s.broker] at h
  exact .inHands l (List.mem_filterMap.mpr ⟨⟨began, .on c⟩, List.mem_of_getElem? hi, h⟩) rfl rfl

/-- A lock that is in the hands of a call after a step was in such hands before, or
the step has released it. -/
theorem mem_hands_advance {s : Traffic} {i began : Nat} {c : Call} {l : Lock}
    (h : l ∈ (s.advance i began c).hands) : l ∈ s.hands ∨ l ∈ s.broker.locks := by
  obtain ⟨x, hx, hl⟩ := List.mem_filterMap.mp h
  obtain hx | rfl := List.mem_or_eq_of_mem_set hx
  · exact .inl (List.mem_filterMap.mpr ⟨x, hx, hl⟩)
  · rw [Call.held?_step] at hl
    have ht : c.transfer s.broker = .release l := by
      revert hl
      cases c.transfer s.broker with
      | release k => exact fun hl => congrArg Transfer.release (Option.some.inj hl)
      | _ => exact fun hl => by contradiction
    exact .inr (Call.mem_locks_of_release ht)

/-- A copy that is somewhere after a step was there before, or the step delivers it, or it
arrives there. -/
theorem Has.of_advance {s : Traffic} {i began : Nat} {c : Call} {e : String} {d : Copy}
    (hi : s.calls[i]? = some ⟨began, .on c⟩) (h : (s.advance i began c).Has e d) :
    s.Has e d ∨
      (∃ l ∈ (c.transfer s.broker).deliveries s.broker, l.entity = e ∧ l.copy = d) ∨
        (e, d) ∈ (c.transfer s.broker).arrivals s.broker := by
  have hk := c.step_keepsCopies s.now s.broker
  cases h with
  | waiting h =>
    have hq : d ∈ ((c.transfer s.broker).apply s.broker).queue e := (hk.queue e) ▸ h
    obtain hq | hp := mem_queue_apply hq
    · exact .inl (.waiting hq)
    · obtain ha | ⟨l, hl, hp⟩ | ⟨l, hl, hp⟩ := mem_placements hp
      · exact .inr (.inr ha)
      · injection hp with he hd
        exact .inl (he ▸ hd ▸ has_of_putsDown? hi (Transfer.putsDown?_of_restores? hl))
      · injection hp with he hd
        exact .inl (.locked l hl he.symm hd.symm)
  | locked l h he hc =>
    obtain hl | hl := Transfer.mem_locks_or_deliveries (hk.locks.mem_iff.mp h)
    · exact .inl (.locked l hl he hc)
    · exact .inr (.inl ⟨l, hl, he, hc⟩)
  | inHands l h he hc =>
    obtain hl | hl := mem_hands_advance h
    · exact .inl (.inHands l hl he hc)
    · exact .inl (.locked l hl he hc)

/-- Every copy that is somewhere after a step was somewhere in the same entity
before, or it arrives there. -/
theorem has_advance {s : Traffic} {i began : Nat} {c : Call} {e : String} {d : Copy}
    (hi : s.calls[i]? = some ⟨began, .on c⟩) (h : (s.advance i began c).Has e d) :
    (∃ a, s.Has e a ∧ d.Continues a) ∨ (e, d) ∈ (c.transfer s.broker).arrivals s.broker := by
  obtain hd | ⟨l, hl, rfl, rfl⟩ | ha := h.of_advance hi
  · exact .inl ⟨d, hd, .refl d⟩
  · obtain ⟨a, ha, hcopy⟩ := Transfer.handOut_of_mem_deliveries hl
    exact .inl ⟨a, .waiting ha, hcopy ▸ .handOut a l.token⟩
  · exact .inr ha

/-- What moves no copy leaves every copy where it was. -/
theorem Has.of_rests {s t : Traffic} {e : String} {d : Copy} (h : t.Has e d)
    (hr : s.Rests t) : s.Has e d := by
  cases h with
  | waiting h => exact .waiting ((hr.broker.queue e) ▸ h)
  | locked l h he hc => exact .locked l (hr.broker.locks.mem_iff.mp h) he hc
  | inHands l h he hc => exact .inHands l (hr.hands ▸ h) he hc

theorem completed_advance {s : Traffic} {i began : Nat} {c : Call} {d : Copy}
    (hi : s.calls[i]? = some ⟨began, .on c⟩) (h : d ∈ (s.advance i began c).broker.completed) :
    d ∈ s.broker.completed ∨ ∃ e, s.Has e d := by
  have hk := c.step_keepsCopies s.now s.broker
  have hc : d ∈ ((c.transfer s.broker).apply s.broker).completed := hk.completed ▸ h
  refine (mem_completed_apply hc).imp_right fun ⟨l, hl, hd⟩ => ⟨l.entity, ?_⟩
  rw [hd]
  exact has_of_putsDown? hi hl

/-! ## The ledger -/

/-- The copies are accounted for. -/
structure Ledger (s : Traffic) : Prop where
  minted : Minted s.broker
  /-- The arrivals are numbered one after the other. -/
  numbered : s.arrivals.map (·.copy.serial) = List.range s.broker.copies
  /-- A copy that is somewhere has arrived there. -/
  traced : ∀ e c, s.Has e c → ∃ a ∈ s.arrivals, a.entity = e ∧ c.Continues a.copy
  /-- A completed copy has arrived. -/
  accounted : ∀ c ∈ s.broker.completed, ∃ a ∈ s.arrivals, c.Continues a.copy
  /-- An arrival is in one place or completed. -/
  balanced : ∀ a ∈ s.arrivals,
    s.balance a.entity a.copy.serial + s.broker.completions a.copy.serial = 1

namespace Ledger

theorem serial_lt {s : Traffic} (h : s.Ledger) {a : Placement} (ha : a ∈ s.arrivals) :
    a.copy.serial < s.broker.copies := by
  have hm : a.copy.serial ∈ s.arrivals.map (·.copy.serial) := List.mem_map_of_mem ha
  rw [h.numbered] at hm
  exact List.mem_range.mp hm

/-- No two arrivals share a number. -/
theorem eq_of_serial {s : Traffic} (h : s.Ledger) {a a' : Placement} (ha : a ∈ s.arrivals)
    (ha' : a' ∈ s.arrivals) (he : a.copy.serial = a'.copy.serial) : a = a' := by
  have hd : (s.arrivals.map (·.copy.serial)).Nodup := by
    rw [h.numbered]
    exact List.nodup_range
  exact List.inj_on_of_nodup_map hd ha ha' he

/-- Outside the entity it arrived in, a copy is nowhere. -/
theorem balance_eq_zero {s : Traffic} (h : s.Ledger) {e : String} {n : Nat}
    (hn : ∀ a ∈ s.arrivals, a.copy.serial = n → a.entity ≠ e) : s.balance e n = 0 := by
  refine Nat.eq_zero_of_not_pos fun hpos => ?_
  obtain ⟨c, hc, hs⟩ := has_of_balance_pos hpos
  obtain ⟨a, ha, he, hca⟩ := h.traced e c hc
  exact hn a ha (hca.serial.symm.trans hs) he

/-- What has not arrived is not completed. -/
theorem completions_eq_zero {s : Traffic} (h : s.Ledger) {n : Nat} (hn : s.broker.copies ≤ n) :
    s.broker.completions n = 0 := by
  rw [completions, List.countP_eq_zero]
  intro c hc hs
  obtain ⟨a, ha, hca⟩ := h.accounted c hc
  have hlt := h.serial_lt ha
  have hcn : c.serial = n := of_decide_eq_true hs
  have := hca.serial
  omega

/-- A step that finishes a copy finishes it in its entity. -/
theorem onCopy_finishes? {s : Traffic} (h : s.Ledger) {i began : Nat} {c : Call}
    (hi : s.calls[i]? = some ⟨began, .on c⟩) {a : Placement} (ha : a ∈ s.arrivals) :
    onCopy a.entity a.copy.serial (c.transfer s.broker).finishes? =
      if (c.transfer s.broker).finishes?.any (·.copy.serial = a.copy.serial) then 1 else 0 := by
  cases hf : (c.transfer s.broker).finishes? with
  | none => rfl
  | some l =>
    by_cases hs : l.copy.serial = a.copy.serial
    · obtain ⟨a', ha', he, hc⟩ :=
        h.traced _ _ (has_of_putsDown? hi (Transfer.putsDown?_of_finishes? hf))
      have haa : a' = a := h.eq_of_serial ha' ha (hc.serial.symm.trans hs)
      subst haa
      simp [onCopy, Lock.isOn, he, hs]
    · simp [onCopy, Lock.isOn, hs]

/-- Of the copies that a step makes, one has the number of each. -/
theorem countP_isFor_arrivals (b : Broker) (t : Transfer) {e : String} {c : Copy}
    (h : (e, c) ∈ t.arrivals b) : (t.arrivals b).countP (isFor e c.serial) = 1 := by
  have hd : ((t.arrivals b).map (·.2.serial)).Nodup := by
    rw [serials_arrivals]
    exact List.nodup_range'
  obtain ⟨before, after, hsplit⟩ := List.append_of_mem h
  rw [hsplit, List.map_append, List.map_cons] at hd
  have hother : ∀ p ∈ before ++ after, isFor e c.serial p = false := by
    intro p hp
    have hne : p.2.serial ≠ c.serial := by
      intro hpc
      have hm : p.2.serial ∈ before.map (·.2.serial) ++ after.map (·.2.serial) := by
        rw [← List.map_append]
        exact List.mem_map_of_mem hp
      exact (List.nodup_middle.mp hd).notMem (hpc ▸ hm)
    simp [isFor, hne]
  have hself : isFor e c.serial (e, c) = true := by simp [isFor]
  have hzero : (before ++ after).countP (isFor e c.serial) = 0 := by
    rw [List.countP_eq_zero]
    intro p hp
    rw [hother p hp]
    exact Bool.false_ne_true
  rw [hsplit, List.countP_append, List.countP_cons_of_pos hself]
  rw [List.countP_append] at hzero
  omega

theorem numbered_advance {s : Traffic} (h : s.Ledger) (i began : Nat) (c : Call) :
    (s.advance i began c).arrivals.map (·.copy.serial) =
      List.range (s.advance i began c).broker.copies := by
  have hcopies : (s.advance i began c).broker.copies =
      s.broker.copies + ((c.transfer s.broker).arrivals s.broker).length := by
    rw [← copies_apply]
    exact (c.step_keepsCopies s.now s.broker).copies
  rw [hcopies, List.range_eq_range', ← List.range'_append_1, ← List.range_eq_range',
    ← h.numbered, Nat.zero_add, ← serials_arrivals]
  simp only [Traffic.advance, List.map_append, List.map_map, Function.comp_def]

/-- A step leaves a copy from before in one place or completed: the copies that it
makes have other numbers. -/
theorem balanced_of_mem {s : Traffic} (h : s.Ledger) {i began : Nat} {c : Call}
    (hi : s.calls[i]? = some ⟨began, .on c⟩) {a : Placement} (ha : a ∈ s.arrivals) :
    (s.advance i began c).balance a.entity a.copy.serial +
      (s.advance i began c).broker.completions a.copy.serial = 1 := by
  have hbal := balance_advance h.minted hi a.entity a.copy.serial
  have hone := h.balanced a ha
  have hnone : ((c.transfer s.broker).arrivals s.broker).countP
      (isFor a.entity a.copy.serial) = 0 := by
    rw [List.countP_eq_zero]
    intro p hp hfor
    have hge := copies_le_serial hp
    have hlt := h.serial_lt ha
    simp only [isFor, Bool.and_eq_true, decide_eq_true_eq] at hfor
    omega
  rw [completions_advance, ← h.onCopy_finishes? hi ha]
  omega

/-- A copy that a step makes is in one place after it: it was nowhere before. -/
theorem balanced_of_arrival {s : Traffic} (h : s.Ledger) {i began : Nat} {c : Call}
    (hi : s.calls[i]? = some ⟨began, .on c⟩) {e : String} {d : Copy}
    (hd : (e, d) ∈ (c.transfer s.broker).arrivals s.broker) :
    (s.advance i began c).balance e d.serial +
      (s.advance i began c).broker.completions d.serial = 1 := by
  have hge : s.broker.copies ≤ d.serial := copies_le_serial hd
  have hbefore : s.balance e d.serial = 0 := h.balance_eq_zero fun a ha hs => by
    have := h.serial_lt ha
    omega
  have hcompleted := h.completions_eq_zero hge
  have hbal := balance_advance h.minted hi e d.serial
  have hone := countP_isFor_arrivals s.broker _ hd
  rw [finishes?_of_mem_arrivals hd, onCopy_none] at hbal
  rw [completions_advance, finishes?_of_mem_arrivals hd, Option.any_none, if_neg Bool.false_ne_true]
  omega

/-- A step keeps the ledger. -/
theorem advance {s : Traffic} (h : s.Ledger) {i began : Nat} {c : Call}
    (hi : s.calls[i]? = some ⟨began, .on c⟩) : (s.advance i began c).Ledger where
  minted := h.minted.step s.now c
  numbered := h.numbered_advance i began c
  traced := by
    intro e d hd
    obtain ⟨k, hk, hdk⟩ | harr := has_advance hi hd
    · obtain ⟨a, ha, he, hka⟩ := h.traced e k hk
      exact ⟨a, List.mem_append_left _ ha, he, hdk.trans hka⟩
    · exact ⟨⟨i, e, d⟩, List.mem_append_right _ (List.mem_map_of_mem harr), rfl, .refl d⟩
  accounted := by
    intro d hd
    obtain hd | ⟨e, hd⟩ := completed_advance hi hd
    · obtain ⟨a, ha, hda⟩ := h.accounted d hd
      exact ⟨a, List.mem_append_left _ ha, hda⟩
    · obtain ⟨a, ha, -, hda⟩ := h.traced e d hd
      exact ⟨a, List.mem_append_left _ ha, hda⟩
  balanced := by
    intro a ha
    obtain ha | ha := List.mem_append.mp ha
    · exact h.balanced_of_mem hi ha
    · obtain ⟨p, hp, rfl⟩ := List.mem_map.mp ha
      exact h.balanced_of_arrival hi hp

/-- What moves no copy keeps the ledger. -/
theorem of_rests {s t : Traffic} (h : s.Ledger) (hr : s.Rests t) : t.Ledger := by
  obtain ⟨hk, hands, arrivals⟩ := hr
  have hqueue (e : String) : t.broker.queue e = s.broker.queue e := hk.queue e
  refine ⟨h.minted.of_keepsCopies hk, ?_, ?_, ?_, ?_⟩
  · rw [arrivals, hk.copies]
    exact h.numbered
  · intro e c hc
    rw [arrivals]
    exact h.traced e c (hc.of_rests ⟨hk, hands, arrivals⟩)
  · rw [arrivals, hk.completed]
    exact h.accounted
  · rw [arrivals]
    intro a ha
    simp only [balance, waiting, locked, inHands, completions]
    rw [hqueue, hk.locks.countP_eq, hk.completed, hands]
    exact h.balanced a ha

end Ledger

/-- Every traffic that can be reached has its copies accounted for. -/
theorem Reachable.ledger {s : Traffic} (h : s.Reachable) : s.Ledger := by
  obtain ⟨supply, h⟩ := h
  induction h with
  | refl =>
    refine ⟨⟨List.nodup_nil, fun l hl => ?_⟩, rfl, fun e c hc => ?_, fun c hc => ?_, fun a ha => ?_⟩
    · contradiction
    · rcases hc with hc | ⟨l, hl, -, -⟩ | ⟨l, hl, -, -⟩ <;> contradiction
    · contradiction
    · contradiction
  | step _ hm ih =>
    obtain ⟨i, began, c, -, hi, rfl⟩ | ⟨hrests, -⟩ := advances_or_rests hm
    · exact ih.advance hi
    · exact ih.of_rests hrests

/-- **Tokens are unique**: at any time no two locks share a token. -/
theorem Reachable.minted {s : Traffic} (h : s.Reachable) : Minted s.broker := h.ledger.minted

/-- Once made, a copy stays among the arrivals. -/
theorem Leads.arrivals_subset {s t : Traffic} (h : s.Leads t) : s.arrivals ⊆ t.arrivals := by
  induction h with
  | refl => exact fun _ ha => ha
  | step _ hm ih =>
    obtain ⟨i, began, c, -, -, rfl⟩ | ⟨hrests, -⟩ := advances_or_rests hm
    · exact fun a ha => List.mem_append_left _ (ih ha)
    · exact hrests.arrivals ▸ ih

/-- Completions are never taken back. -/
theorem Leads.completions_le {s t : Traffic} (h : s.Leads t) (n : Nat) :
    s.broker.completions n ≤ t.broker.completions n := by
  induction h with
  | refl => exact Nat.le_refl _
  | step _ hm ih =>
    refine Nat.le_trans ih ?_
    obtain ⟨i, began, c, -, -, rfl⟩ | ⟨hrests, -⟩ := advances_or_rests hm
    · rw [completions_advance]
      exact Nat.le_add_right _ _
    · exact Nat.le_of_eq (congrArg (·.countP (·.serial = n)) hrests.broker.completed.symm)

/-- What becomes of a copy. -/
structure Accounts (s : Traffic) (a : Placement) : Prop where
  /-- It is in one place of its entity, or it is completed, and once only. -/
  once : s.broker.waiting a.entity a.copy.serial + s.broker.locked a.entity a.copy.serial +
    s.inHands a.entity a.copy.serial + s.broker.completions a.copy.serial = 1
  /-- It is in no place of another entity. -/
  atHome : ∀ e ≠ a.entity, s.broker.waiting e a.copy.serial = 0 ∧
    s.broker.locked e a.copy.serial = 0 ∧ s.inHands e a.copy.serial = 0
  /-- Wherever it is, it has the content with which it arrived. -/
  content : ∀ c, c ∈ s.broker.completed ∨ (∃ e, s.Has e c) → c.serial = a.copy.serial →
    c.message.SameContent a.copy.message
  /-- Completed, it stays completed. -/
  forGood : s.broker.completions a.copy.serial = 1 →
    ∀ t, s.Leads t → t.broker.completions a.copy.serial = 1

/-- **Conservation**: in any order of calls, every copy that was ever made is
in one place of its entity, or it is completed for good. -/
theorem Reachable.accounts {s : Traffic} (h : s.Reachable) {a : Placement} (ha : a ∈ s.arrivals) :
    s.Accounts a where
  once := h.ledger.balanced a ha
  atHome e he := by
    have hzero : s.balance e a.copy.serial = 0 := h.ledger.balance_eq_zero fun a' ha' hs => by
      rw [h.ledger.eq_of_serial ha' ha hs]
      exact he.symm
    unfold balance at hzero
    omega
  content c hc hs := by
    obtain ⟨a', ha', hca⟩ : ∃ a' ∈ s.arrivals, c.Continues a'.copy := by
      obtain hc | ⟨e, hc⟩ := hc
      · exact h.ledger.accounted c hc
      · obtain ⟨a', ha', -, hca⟩ := h.ledger.traced e c hc
        exact ⟨a', ha', hca⟩
    have haa : a' = a := h.ledger.eq_of_serial ha' ha (hca.serial.symm.trans hs)
    exact haa ▸ hca.content
  forGood hdone t ht := by
    have hle := ht.completions_le a.copy.serial
    have hone := (Reachable.leads h ht).ledger.balanced a (ht.arrivals_subset ha)
    omega

/-- A message for a topic with two subscriptions; one copy is received, and its
completion has released the lock and not recorded it yet. -/
def halfCompleted : List Move := [
  .begin (.createSubscription "jobs" "audit"), .advance 0,
  .begin (.createSubscription "jobs" "work"), .advance 1,
  .begin (.createReceiver "jobs/subscriptions/work"), .advance 2, .advance 2,
  .begin (.send "jobs" [1] { messageId := some "a" }), .advance 3, .advance 3, .advance 3,
  .begin (.receive ⟨0, "jobs/subscriptions/work"⟩ 1 .zero),
  .advance 4, .advance 4, .advance 4, .advance 4,
  .begin (.settle ⟨0, "jobs/subscriptions/work"⟩ ⟨counting.nth 0⟩ .complete),
  .advance 5, .advance 5]

/-- The second copy of that message. -/
def workCopy : Placement :=
  ⟨3, "jobs/subscriptions/work", 1, "a", [1], ⟨""⟩, none, [], .ofMillis 0, 0⟩

theorem accounts_halfCompleted : ∃ s, run {} halfCompleted = some s ∧ workCopy ∈ s.arrivals ∧
    s.inHands workCopy.entity workCopy.copy.serial = 1 ∧ s.Accounts workCopy := by
  have hrun : (run {} halfCompleted).any fun s =>
      workCopy ∈ s.arrivals ∧ s.inHands workCopy.entity workCopy.copy.serial = 1 := by
    decide
  obtain ⟨s, hs, hp⟩ := (Option.any_eq_true _ _).mp hrun
  obtain ⟨harrived, hheld⟩ := of_decide_eq_true hp
  exact ⟨s, hs, harrived, hheld, Reachable.accounts (reachable_of_run hs) harrived⟩

end Traffic

end Broker

end PeekLock
