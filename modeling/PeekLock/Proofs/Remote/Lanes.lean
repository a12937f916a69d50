import Mathlib.Data.List.GetD
import PeekLock.Remote.Lanes

/-!
# PeekLock.Proofs.Remote.Lanes

Changing one receiver, or one lane of it, and what stays as it is.
-/

namespace PeekLock.Remote.Client

variable {s : Client} {r r' p p' : Nat}

/-- A client with the same receivers has the same lanes. -/
theorem receiver_congr {s t : Client} (h : t.receivers = s.receivers) (r : Nat) :
    t.receiver r = s.receiver r := by
  rw [receiver, receiver, h]

theorem lane_congr {s t : Client} (h : t.receivers = s.receivers) (r p : Nat) :
    t.lane r p = s.lane r p := by
  rw [lane, lane, receiver_congr h]

/-! ## Receivers -/

@[simp] theorem length_setReceiver (s : Client) (r : Nat) (set : LaneSet) :
    (s.setReceiver r set).receivers.length = s.receivers.length :=
  List.length_set

theorem receiver_setReceiver_self (hr : r < s.receivers.length) (set : LaneSet) :
    (s.setReceiver r set).receiver r = set := by
  rw [receiver, setReceiver, List.getD_eq_getElem?_getD, List.getElem?_set_self hr]
  rfl

theorem receiver_setReceiver_ne (h : r' ≠ r) (set : LaneSet) :
    (s.setReceiver r set).receiver r' = s.receiver r' := by
  rw [receiver, setReceiver, List.getD_eq_getElem?_getD, List.getElem?_set_ne (Ne.symm h)]
  rfl

/-- A receiver that is changed is itself afterwards, or there was no such receiver. -/
theorem receiver_setReceiver (s : Client) (r r' : Nat) (set : LaneSet) :
    (s.setReceiver r set).receiver r' = s.receiver r' ∨
      r' = r ∧ r < s.receivers.length ∧ (s.setReceiver r set).receiver r' = set := by
  by_cases h : r' = r
  · by_cases hr : r < s.receivers.length
    · exact .inr ⟨h, hr, h ▸ receiver_setReceiver_self hr set⟩
    · refine .inl ?_
      rw [receiver, setReceiver, List.set_eq_of_length_le (Nat.le_of_not_lt hr)]
      rfl
  · exact .inl (receiver_setReceiver_ne h set)

/-- The receivers that there were are still there after another was added. -/
theorem receiver_append (set : LaneSet) (hr : r < s.receivers.length) :
    { s with receivers := s.receivers ++ [set] }.receiver r = s.receiver r :=
  List.getD_append _ _ _ _ hr

theorem receiver_append_self (s : Client) (set : LaneSet) :
    { s with receivers := s.receivers ++ [set] }.receiver s.receivers.length = set := by
  rw [receiver, List.getD_append_right _ _ _ _ (Nat.le_refl _), Nat.sub_self]
  rfl

theorem receiver_of_le (h : s.receivers.length ≤ r) : s.receiver r = default :=
  List.getD_eq_default _ _ h

/-! ## Lanes -/

theorem mem_lanes (hp : p < (s.receiver r).lanes.length) :
    s.lane r p ∈ (s.receiver r).lanes := by
  rw [lane, List.getD_eq_getElem _ _ hp]
  exact List.getElem_mem hp

theorem getElem?_lane (hp : p < (s.receiver r).lanes.length) :
    (s.receiver r).lanes[p]? = some (s.lane r p) := by
  rw [lane, List.getD_eq_getElem _ _ hp]
  exact List.getElem?_eq_getElem hp

theorem lane_of_getElem? {l : Lane} (h : (s.receiver r).lanes[p]? = some l) : s.lane r p = l := by
  rw [lane, List.getD_eq_getElem?_getD, h]
  rfl

theorem length_lanes_setLane (s : Client) (r p : Nat) (l : Lane) (r' : Nat) :
    ((s.setLane r p l).receiver r').lanes.length = (s.receiver r').lanes.length := by
  obtain h | ⟨rfl, hr, h⟩ := receiver_setReceiver s r r'
    { s.receiver r with lanes := (s.receiver r).lanes.set p l }
  · exact congrArg (·.lanes.length) h
  · exact (congrArg (·.lanes.length) h).trans List.length_set

/-- A receiver that keeps its lanes. -/
theorem lane_setReceiver {set : LaneSet} (h : set.lanes = (s.receiver r).lanes) :
    (s.setReceiver r set).lane r' p = s.lane r' p := by
  obtain he | ⟨rfl, -, he⟩ := receiver_setReceiver s r r' set
  · rw [lane, he]
    rfl
  · rw [lane, he, h]
    rfl

theorem lane_append (set : LaneSet) (hp : p < (s.receiver r).lanes.length) :
    { s with receivers := s.receivers ++ [set] }.lane r p = s.lane r p := by
  by_cases hr : r < s.receivers.length
  · rw [lane, receiver_append set hr]
    rfl
  · rw [receiver_of_le (Nat.le_of_not_lt hr)] at hp
    contradiction

theorem lane_setLane_ne (h : ¬(r' = r ∧ p' = p)) (l : Lane) :
    (s.setLane r p l).lane r' p' = s.lane r' p' := by
  obtain hs | ⟨rfl, hr, hs⟩ := receiver_setReceiver s r r'
    { s.receiver r with lanes := (s.receiver r).lanes.set p l }
  · rw [lane, setLane, hs]
    rfl
  · rw [lane, setLane, hs, List.getD_eq_getElem?_getD,
      List.getElem?_set_ne fun hp => h ⟨rfl, hp.symm⟩]
    rfl

/-! ## Another lane -/

theorem receiver_addLane_self (hr : r < s.receivers.length) (link : Nat) :
    (s.addLane r link).2.receiver r =
      { s.receiver r with
        lanes := (s.receiver r).lanes ++ [⟨(s.receiver r).listed.length, some link, []⟩]
        listed := (s.receiver r).listed ++ [(s.receiver r).lanes.length] } :=
  receiver_setReceiver_self hr _

theorem receiver_addLane_ne (h : r' ≠ r) (link : Nat) :
    (s.addLane r link).2.receiver r' = s.receiver r' :=
  receiver_setReceiver_ne h _

theorem receivers_addLane_congr {s t : Client} (h : t.receivers = s.receivers) (r link : Nat) :
    (t.addLane r link).2.receivers = (s.addLane r link).2.receivers := by
  simp only [addLane, setReceiver, receiver_congr h, h]

/-- The lane that is added. -/
theorem lane_addLane_self (hr : r < s.receivers.length) (link : Nat) :
    (s.addLane r link).2.lane r (s.receiver r).lanes.length =
      ⟨(s.receiver r).listed.length, some link, []⟩ := by
  refine lane_of_getElem? ?_
  rw [receiver_addLane_self hr]
  exact List.getElem?_concat_length

/-- The other lanes stay as they are. -/
theorem lane_addLane_ne (hp : r' = r → p < (s.receiver r).lanes.length) (link : Nat) :
    (s.addLane r link).2.lane r' p = s.lane r' p := by
  by_cases h : r' = r
  · subst h
    by_cases hr : r' < s.receivers.length
    · rw [lane, receiver_addLane_self hr]
      exact List.getD_append _ _ _ _ (hp rfl)
    · rw [lane, receiver_of_le (by simpa [addLane] using Nat.le_of_not_lt hr), lane,
        receiver_of_le (Nat.le_of_not_lt hr)]
  · rw [lane, receiver_addLane_ne h]
    rfl

end PeekLock.Remote.Client
