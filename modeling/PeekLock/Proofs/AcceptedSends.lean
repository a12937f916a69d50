import PeekLock.Proofs.Broker.Sends
import PeekLock.Proofs.Remote.Sends

/-!
# PeekLock.Proofs.AcceptedSends

Which sends the two buses accept.

They look at different things.  In memory the target decides: it has to be
a name.  On the remote bus the given id does: it must be neither empty nor
too long, unless nothing is sent under it; the target is left to the other
side.  So the buses agree on what is sent to a name under an id that fits,
and on nothing else (`dispatched`), which a target with a blank shows
(`disagree_on_blank`).
-/

namespace PeekLock

/-- What is to be sent. -/
inductive Parcel where
  | one (body : List UInt8)
  | batch (bodies : List (List UInt8))

namespace Parcel

/-- The request to the bus in memory. -/
def request (target : String) (options : SendOptions) : Parcel → Broker.Request
  | .one body => .send target body options
  | .batch bodies => .sendBatch target bodies options

/-- The demand on the remote bus. -/
def demand (target : String) (options : SendOptions) : Parcel → Remote.Demand
  | .one body => .send target body options
  | .batch bodies => .sendBatch target bodies options

/-- A batch without messages. -/
def isEmpty : Parcel → Bool
  | .one _ => false
  | .batch bodies => bodies.isEmpty

/-- The id that is given fits, or nothing is sent under it. -/
def IdsFit (options : SendOptions) (p : Parcel) : Prop :=
  p.isEmpty = true ∨ ∀ id, options.messageId = some id → Remote.IdFits id

/-- What the remote bus says to the ids. -/
def idVerdict (options : SendOptions) : Parcel → Except BusError Unit
  | .one _ => Remote.idVerdict options.messageId
  | .batch bodies => Remote.batchVerdict bodies options

theorem idVerdict_eq_ok_iff (options : SendOptions) (p : Parcel) :
    p.idVerdict options = .ok () ↔ p.IdsFit options := by
  rw [IdsFit, ← Remote.idVerdict_eq_ok_iff]
  cases p with
  | one body => exact (or_iff_right nofun).symm
  | batch bodies =>
    rw [idVerdict, Remote.batchVerdict, isEmpty]
    split
    · next h => exact iff_of_true rfl (.inl h)
    · next h => exact (or_iff_right h).symm

theorem sendFailed_of_idVerdict {options : SendOptions} {p : Parcel} {e : BusError}
    (h : p.idVerdict options = .error e) : ∃ detail, e = .sendFailed detail := by
  cases p with
  | one body => exact Remote.sendFailed_of_idVerdict h
  | batch bodies =>
    rw [idVerdict, Remote.batchVerdict] at h
    split at h
    · cases h
    · exact Remote.sendFailed_of_idVerdict h

theorem sendVerdict_request (target : String) (options : SendOptions) (p : Parcel) :
    (p.request target options).call.sendVerdict? = some (Broker.checkTarget target) := by
  cases p <;> rfl

theorem sendVerdict_demand (target : String) (options : SendOptions) (p : Parcel) :
    Remote.Entry.sendVerdict? ⟨p.demand target options, .on (p.demand target options).call⟩ =
      some (p.idVerdict options) := by
  cases p <;> rfl

end Parcel

/-! ## Answers -/

/-- Two results are alike: both are good, or both are errors of one kind. -/
def Alike : (a b : Except BusError Unit) → Prop
  | .ok (), .ok () => True
  | .error e, .error f => e.ctorIdx = f.ctorIdx
  | _, _ => False

/-- The answer to what was sent by the call of that number, once it has ended. -/
def Broker.Traffic.sendAnswer? (t : Broker.Traffic) (i : Nat) : Option (Except BusError Unit) :=
  match t.calls[i]? with
  | some ⟨_, .done o⟩ => o.sendVerdict?
  | _ => none

/-- The answer to what was sent by the call of that number, once it has ended. -/
def Remote.Traffic.sendAnswer? (t : Remote.Traffic) (i : Nat) : Option (Except BusError Unit) :=
  match t.calls[i]? with
  | some ⟨_, .done (.sent result)⟩ => some (result.map fun _ => ())
  | _ => none

/-- The answer of the bus in memory to one of its calls, in any order of calls. -/
structure Broker.Traffic.Answered (s : Broker.Traffic) (q : Request)
    (v : Except BusError Unit) : Prop where
  /-- It answers so, if at all. -/
  only : ∀ t, (s.accept q).Leads t → ∀ w, t.sendAnswer? s.calls.length = some w → w = v
  /-- It can always come to answer. -/
  ends : ∀ t, (s.accept q).Leads t → ∃ u, t.Leads u ∧ u.sendAnswer? s.calls.length = some v

/-- The answer of the remote bus to one of its calls, in any order of calls, while the other side
obliges. -/
structure Remote.Traffic.Answered (s : Remote.Traffic) (q : Demand)
    (v : Except BusError Unit) : Prop where
  /-- It answers so, if at all. -/
  only : ∀ t, (s.accept q).LeadsObliged t → ∀ w, t.sendAnswer? s.calls.length = some w → w = v
  /-- It can always come to answer. -/
  ends : ∀ t, (s.accept q).LeadsObliged t →
    ∃ u, t.LeadsObliged u ∧ u.sendAnswer? s.calls.length = some v

theorem Broker.Traffic.answered_of_sendVerdict (s : Broker.Traffic) {q : Request}
    {v : Except BusError Unit} (h : q.call.sendVerdict? = some v) : s.Answered q v := by
  have hknown {t : Broker.Traffic} (ht : (s.accept q).Leads t) :
      ∃ y, t.calls[s.calls.length]? = some y ∧ y.sendVerdict? = some v :=
    ht.sendVerdict (i := s.calls.length) List.getElem?_concat_length h
  refine ⟨fun t ht w hw => ?_, fun t ht => ?_⟩
  · obtain ⟨⟨began, p⟩, hy, hv⟩ := hknown ht
    rw [sendAnswer?, hy] at hw
    cases p with
    | on c => contradiction
    | done o => exact Option.some.inj (hw.symm.trans hv)
  · obtain ⟨⟨began, p⟩, hy, hv⟩ := hknown ht
    cases p with
    | on c =>
      obtain ⟨u, o, hu, ho⟩ := exists_done_of_sendVerdict hy hv
      obtain ⟨z, hz, hzv⟩ := hknown (ht.trans hu)
      rw [ho] at hz
      cases hz
      exact ⟨u, hu, by rw [sendAnswer?, ho]; exact hzv⟩
    | done o => exact ⟨t, .refl t, by rw [sendAnswer?, hy]; exact hv⟩

theorem Remote.Traffic.answered_of_sendVerdict {s : Remote.Traffic} (hs : s.Reachable)
    {q : Demand} (hq : q.receiver? = none) {v : Except BusError Unit}
    (h : Entry.sendVerdict? ⟨q, .on q.call⟩ = some v) : s.Answered q v := by
  have hknown {t : Remote.Traffic} (ht : (s.accept q).LeadsObliged t) :
      ∃ y, t.calls[s.calls.length]? = some y ∧ y.sendVerdict? = some v :=
    ht.sendVerdict (i := s.calls.length) List.getElem?_concat_length h
  have hbegin : s.after (.begin q) = some (s.accept q) := by
    rw [after, hq]
    rfl
  refine ⟨fun t ht w hw => ?_, fun t ht => ?_⟩
  · obtain ⟨⟨r, p⟩, hy, hv⟩ := hknown ht
    rw [sendAnswer?, hy] at hw
    unfold Entry.sendVerdict? at hv
    split at hw
    · next he =>
      cases he
      exact Option.some.inj (hw.symm.trans hv)
    · contradiction
  · obtain ⟨y, hy, hv⟩ := hknown ht
    have hreach : t.Reachable := (hs.step hbegin).leads ht.leads
    obtain ⟨u, r, o, hu, ho⟩ := hreach.exists_done_of_sendVerdict ht.obliges hy hv
    obtain ⟨z, hz, hzv⟩ := hknown (ht.trans hu)
    rw [ho] at hz
    cases hz
    refine ⟨u, hu, ?_⟩
    cases o with
    | sent result => rw [sendAnswer?, ho]; exact hzv
    | _ => contradiction

/-! ## Both buses -/

/-- What becomes of something that is sent, on either bus. -/
structure Dispatched (b : Broker.Traffic) (s : Remote.Traffic) (target : String)
    (options : SendOptions) (p : Parcel) : Prop where
  /-- How the bus in memory answers, and how the remote one does. -/
  inMemory : b.Answered (p.request target options) (Broker.checkTarget target)
  remotely : s.Answered (p.demand target options) (p.idVerdict options)
  /-- In memory the target decides. -/
  inMemory_ok : Broker.checkTarget target = .ok () ↔ EntityPath.IsSegment target
  inMemory_error : ∀ e, Broker.checkTarget target = .error e → ∃ name, e = .invalidQueueName name
  /-- On the remote bus the id does. -/
  remotely_ok : p.idVerdict options = .ok () ↔ p.IdsFit options
  remotely_error : ∀ e, p.idVerdict options = .error e → ∃ detail, e = .sendFailed detail
  /-- So they agree where both accept, and nowhere else. -/
  alike_iff : Alike (Broker.checkTarget target) (p.idVerdict options) ↔
    EntityPath.IsSegment target ∧ p.IdsFit options

/-- **Which sends are accepted**: by the bus in memory those to a name, by the remote bus those
whose id fits. -/
theorem dispatched (b : Broker.Traffic) {s : Remote.Traffic} (hs : s.Reachable) (target : String)
    (options : SendOptions) (p : Parcel) : Dispatched b s target options p where
  inMemory := b.answered_of_sendVerdict (p.sendVerdict_request target options)
  remotely := Remote.Traffic.answered_of_sendVerdict hs (by cases p <;> rfl)
    (p.sendVerdict_demand target options)
  inMemory_ok := Broker.checkTarget_eq_ok_iff target
  inMemory_error _ := Broker.invalidQueueName_of_checkTarget
  remotely_ok := p.idVerdict_eq_ok_iff options
  remotely_error _ := Parcel.sendFailed_of_idVerdict
  alike_iff := by
    rw [← Broker.checkTarget_eq_ok_iff, ← p.idVerdict_eq_ok_iff]
    cases htarget : Broker.checkTarget target with
    | error e =>
      obtain ⟨name, rfl⟩ := Broker.invalidQueueName_of_checkTarget htarget
      cases hids : p.idVerdict options with
      | error f =>
        obtain ⟨detail, rfl⟩ := Parcel.sendFailed_of_idVerdict hids
        exact iff_of_false nofun nofun
      | ok _ => exact iff_of_false id nofun
    | ok _ =>
      cases hids : p.idVerdict options with
      | error f => exact iff_of_false id nofun
      | ok _ => exact iff_of_true trivial ⟨rfl, rfl⟩

/-- A batch is on its way to the remote bus, under an id that is empty. -/
def anonymousBatch : List Remote.Move :=
  [.begin (.sendBatch "orders" [[1], [2]] { messageId := some "" }), .advance 0]

theorem dispatched_anonymousBatch : ∃ s, Remote.Traffic.run {} anonymousBatch = some s ∧
    s.sendAnswer? 0 = some (.error (.sendFailed "invalid message id: Value cannot be empty")) ∧
    Dispatched {} s "orders" { messageId := some "" } (.batch [[1], [2]]) := by
  have hrun : (Remote.Traffic.run {} anonymousBatch).any fun s => s.sendAnswer? 0 =
      some (.error (.sendFailed "invalid message id: Value cannot be empty")) := by
    decide
  obtain ⟨s, hs, ha⟩ := (Option.any_eq_true _ _).mp hrun
  exact ⟨s, hs, of_decide_eq_true ha, dispatched {} (Remote.Traffic.reachable_of_run hs) _ _ _⟩

/-- A target with a blank is refused in memory, and served on the remote bus. -/
theorem disagree_on_blank :
    ((Broker.Traffic.run {} [.begin (.send "has space" [1] {}), .advance 0]).bind
      fun t => t.sendAnswer? 0) = some (.error (.invalidQueueName "has space")) ∧
    ((Remote.Traffic.run {} [.begin (.send "has space" [1] {}), .advance 0, .advance 0, .advance 0,
      .advance 0]).bind fun t => t.sendAnswer? 0) = some (.ok ()) := by
  decide

end PeekLock
