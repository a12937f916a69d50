import Mathlib.Data.List.Induction
import PeekLock.Proofs.Broker.Conservation
import PeekLock.Proofs.Broker.Settlements

/-!
# PeekLock.Proofs.Broker.Registrations

The receivers and the subscriptions that the in-memory bus knows.

Receivers are numbered as they are created, so no two share a number, and
a lock, which names its receiver by the number, is always on a copy of the
entity of that receiver (`Manned`).  The subscriptions of a topic are the
paths that were registered for it, each of them once, in the order of
their first registration (`Registered`).
-/

namespace PeekLock.Broker

/-! ## What a step registers -/

/-- No receiver and no subscription is registered. -/
structure RegistersNothing (before after : Broker) : Prop where
  nextReceiver : after.nextReceiver = before.nextReceiver
  subscriptions : after.subscriptions = before.subscriptions

namespace RegistersNothing

theorem refl (b : Broker) : RegistersNothing b b := ⟨rfl, rfl⟩

theorem buildMessage (b : Broker) (now : Nat) (body : List UInt8) (options : SendOptions) :
    RegistersNothing b (b.buildMessage now body options).2 := by
  unfold Broker.buildMessage
  cases options.messageId <;> exact ⟨rfl, rfl⟩

theorem goOn (now : Nat) (b : Broker) (target : String) (count : Nat) (options : SendOptions)
    (bodies : List (List UInt8)) :
    RegistersNothing b (SendBatch.goOn now b target count options bodies).state := by
  cases bodies with
  | nil => exact .refl b
  | cons body rest => exact .buildMessage b now body options

theorem enqueue (b : Broker) (target : String) (m : Message) :
    RegistersNothing b (b.enqueue target m) := by
  rw [enqueue_frame]
  exact ⟨rfl, rfl⟩

theorem lapse (b : Broker) (r : Receiver) : RegistersNothing b (b.lapse r) := by
  rw [lapse_eq]
  exact ⟨rfl, rfl⟩

end RegistersNothing

namespace Call

/-- Only the last step of the creation of a receiver or of a subscription registers something. -/
theorem step_registers (now : Nat) (b : Broker) (c : Call) :
    RegistersNothing b (c.step now b).state ∨ (∃ path, c = .opening (.registering path)) ∨
      ∃ topic name, c = .subscribing topic name := by
  obtain c | c | c | ⟨r, most, timeout, point⟩ | ⟨r, token, verdict, point⟩ | ⟨r, point⟩ |
    ⟨topic, name⟩ | _ := c
  case opening =>
    cases c with
    | checking entity =>
      refine .inl ?_
      simp only [Call.step, Step.map, Open.step]
      split
      · exact .refl b
      · split <;> exact .refl b
    | registering path => exact .inr (.inl ⟨path, rfl⟩)
  case subscribing => exact .inr (.inr ⟨topic, name, rfl⟩)
  all_goals refine .inl ?_
  case sending =>
    cases c with
    | checking target body options =>
      simp only [Call.step, Step.map, Send.step]
      split
      · exact .refl b
      · exact .buildMessage b now body options
    | enqueueing target m => exact .enqueue b target m
    | announcing target id => exact ⟨rfl, rfl⟩
  case sendingBatch =>
    cases c with
    | checking target bodies options =>
      simp only [Call.step, Step.map, SendBatch.step]
      split
      · exact .refl b
      · exact .goOn now b target _ options bodies
    | enqueueing target count m rest options => exact .enqueue b target m
    | announcing target count rest options =>
      have h := RegistersNothing.goOn now b.broadcast target count options rest
      exact ⟨h.nextReceiver, h.subscriptions⟩
  case receiving =>
    cases point with
    | delayed due => exact .refl b
    | _ => simp only [Call.step, Step.map, Receive.step]; split <;> exact ⟨rfl, rfl⟩
  case settling =>
    cases point with
    | readingFault =>
      simp only [Call.step, Step.map, Settle.step]
      split
      · split <;> exact .refl b
      · exact .refl b
    | releasing => simp only [Call.step, Step.map, Settle.step]; split <;> exact ⟨rfl, rfl⟩
    | recording l => cases verdict <;> exact ⟨rfl, rfl⟩
    | announcing => exact ⟨rfl, rfl⟩
  case closing =>
    cases point with
    | marking => simp only [Call.step, Step.map, Close.step]; split <;> exact ⟨rfl, rfl⟩
    | lapsing => exact .lapse b r
    | announcing => exact ⟨rfl, rfl⟩
  case arranging => exact ⟨rfl, rfl⟩

end Call

/-! ## Calls and their receivers -/

/-- The receiver that a call is about. -/
def Call.receiver? : Call → Option Receiver
  | .receiving c => some c.receiver
  | .settling c => some c.receiver
  | .closing c => some c.receiver
  | _ => none

/-- A receive that goes on is still one of the same receiver. -/
theorem Receive.receiver_of_step {now : Nat} {b : Broker} {c c' : Receive}
    (h : (c.step now b).progress = .on c') : c'.receiver = c.receiver := by
  obtain ⟨r, most, timeout, point⟩ := c
  cases point with
  | readingFaults =>
    simp only [step] at h
    split at h <;> cases h <;> rfl
  | delayed due =>
    cases h
    rfl
  | looking deadline seen =>
    simp only [step] at h
    split at h <;> cases h
    rfl
  | _ =>
    simp only [step] at h
    split at h <;> cases h
    rfl

theorem Close.receiver_of_step {b : Broker} {c c' : Close} (h : (c.step b).progress = .on c') :
    c'.receiver = c.receiver := by
  obtain ⟨r, point⟩ := c
  cases point with
  | marking =>
    simp only [step] at h
    split at h <;> cases h
    rfl
  | lapsing =>
    cases h
    rfl
  | announcing => contradiction

/-- A call that goes on is still about the same receiver. -/
theorem Call.receiver?_of_step {now : Nat} {b : Broker} {c c' : Call}
    (h : (c.step now b).progress = .on c') : c'.receiver? = c.receiver? := by
  cases c with
  | receiving c =>
    obtain ⟨k, hk, rfl⟩ := Progress.map_eq_on h
    exact congrArg some (Receive.receiver_of_step hk)
  | settling c =>
    obtain ⟨k, hk, rfl⟩ := Progress.map_eq_on h
    exact congrArg some (Settle.same_of_step hk).1
  | closing c =>
    obtain ⟨k, hk, rfl⟩ := Progress.map_eq_on h
    exact congrArg some (Close.receiver_of_step hk)
  | subscribing topic name => contradiction
  | arranging faults => contradiction
  | _ =>
    obtain ⟨k, -, rfl⟩ := Progress.map_eq_on h
    rfl

private theorem created?_map_of_none {κ α : Type} (began : Nat) (point : κ → Call)
    (result : α → Outcome) (h : ∀ a, Entry.created? ⟨began, .done (result a)⟩ = none)
    (p : Progress κ α) : Entry.created? ⟨began, p.map point result⟩ = none := by
  cases p with
  | on k => rfl
  | done a => exact h a

/-- Only the last step of the creation of a receiver creates one, with the next number. -/
theorem Call.registering_of_created {now began : Nat} {b : Broker} {c : Call} {r : Receiver}
    (h : Entry.created? ⟨began, (c.step now b).progress⟩ = some r) :
    ∃ path, c = .opening (.registering path) ∧ r = ⟨b.nextReceiver, path⟩ := by
  cases c with
  | opening c =>
    cases c with
    | checking entity =>
      simp only [Call.step, Step.map, Open.step] at h
      split at h
      · contradiction
      · split at h <;> contradiction
    | registering path =>
      cases h
      exact ⟨path, rfl, rfl⟩
  | subscribing topic name => contradiction
  | arranging faults => contradiction
  | _ =>
    rw [Call.step, Step.map, created?_map_of_none began _ _ fun _ => rfl] at h
    contradiction

namespace Traffic

/-- Receivers are known by their numbers, and so are the receivers of locks and settlements. -/
structure Manned (s : Traffic) : Prop where
  numbered : ∀ r ∈ s.receivers, r.id < s.broker.nextReceiver
  distinct : ∀ r ∈ s.receivers, ∀ r' ∈ s.receivers, r.id = r'.id → r = r'
  /-- Every call is about a receiver that was created. -/
  called : ∀ (i began : Nat) (c : Call), s.calls[i]? = some ⟨began, .on c⟩ →
    ∀ r, c.receiver? = some r → r ∈ s.receivers
  /-- Every lock is one of a receiver, on a copy of its entity. -/
  locks : ∀ l ∈ s.broker.locks, (⟨l.receiver, l.entity⟩ : Receiver) ∈ s.receivers
  /-- A lock that was released is one of the receiver that settles it. -/
  held : ∀ (i began : Nat) (c : Settle), s.calls[i]? = some ⟨began, .on (.settling c)⟩ →
    ∀ l, c.point = .recording l → l.entity = c.receiver.entity

theorem receivers_accept (s : Traffic) (q : Request) : (s.accept q).receivers = s.receivers := by
  simp only [receivers, accept, List.filterMap_append, List.filterMap_cons, List.filterMap_nil,
    Entry.created?, List.append_nil]

theorem receivers_dropReceive {s : Traffic} {i began : Nat} {c : Receive}
    (hi : s.calls[i]? = some ⟨began, .on (.receiving c)⟩) :
    (s.dropReceive i began c).receivers = s.receivers :=
  filterMap_set_of_eq hi rfl

/-- A receiver that is there after a step was there before, or the step has created it. -/
theorem mem_receivers_advance {s : Traffic} {i began : Nat} {c : Call} {r : Receiver}
    (h : r ∈ (s.advance i began c).receivers) :
    r ∈ s.receivers ∨ Entry.created? ⟨began, (c.step s.now s.broker).progress⟩ = some r := by
  obtain ⟨x, hx, hr⟩ := List.mem_filterMap.mp h
  obtain hx | rfl := List.mem_or_eq_of_mem_set hx
  · exact .inl (List.mem_filterMap.mpr ⟨x, hx, hr⟩)
  · exact .inr hr

namespace Manned

variable {s : Traffic}

/-- A settlement finds only locks on copies of the entity of its receiver. -/
theorem entity_of_lock? (h : s.Manned) {r : Receiver} (hr : r ∈ s.receivers) {token : LockToken}
    {l : Lock} (hl : s.broker.lock? r token = some l) : l.entity = r.entity := by
  obtain ⟨hmem, -, hid⟩ := mem_of_lock? hl
  exact congrArg Receiver.entity (h.distinct _ (h.locks l hmem) r hr hid)

theorem nextReceiver_le_advance (s : Traffic) (i began : Nat) (c : Call) :
    s.broker.nextReceiver ≤ (s.advance i began c).broker.nextReceiver := by
  obtain hs | ⟨path, rfl⟩ | ⟨topic, name, rfl⟩ := c.step_registers s.now s.broker
  · exact Nat.le_of_eq hs.nextReceiver.symm
  · exact Nat.le_succ _
  · exact Nat.le_refl _

theorem advance (h : s.Manned) {i began : Nat} {c : Call}
    (hi : s.calls[i]? = some ⟨began, .on c⟩) (hr : c.isReady s.now s.broker = true) :
    (s.advance i began c).Manned := by
  have hkept {r : Receiver} (hmem : r ∈ s.receivers) : r ∈ (s.advance i began c).receivers :=
    ((Leads.refl s).step (after_advance hi hr)).mem_receivers hmem
  have hnew {r : Receiver}
      (hc : Entry.created? ⟨began, (c.step s.now s.broker).progress⟩ = some r) :
      r.id = s.broker.nextReceiver ∧
        (s.advance i began c).broker.nextReceiver = s.broker.nextReceiver + 1 := by
    obtain ⟨path, rfl, rfl⟩ := Call.registering_of_created hc
    exact ⟨rfl, rfl⟩
  constructor
  case numbered =>
    intro r hmem
    obtain hmem | hc := mem_receivers_advance hmem
    · exact Nat.lt_of_lt_of_le (h.numbered r hmem) (nextReceiver_le_advance s i began c)
    · obtain ⟨hid, hnext⟩ := hnew hc
      omega
  case distinct =>
    intro r hmem r' hmem' hid
    obtain hmem | hc := mem_receivers_advance hmem <;>
      obtain hmem' | hc' := mem_receivers_advance hmem'
    · exact h.distinct r hmem r' hmem' hid
    · have hlt := h.numbered r hmem
      have hid' := (hnew hc').1
      omega
    · have hlt := h.numbered r' hmem'
      have hid' := (hnew hc).1
      omega
    · exact Option.some.inj (hc.symm.trans hc')
  case called =>
    intro j began' k hj r hk
    obtain ⟨-, hj⟩ | ⟨-, -, hp⟩ := call_of_advance hi hj
    · exact hkept (h.called j began' k hj r hk)
    · rw [Call.receiver?_of_step hp] at hk
      exact hkept (h.called i began c hi r hk)
  case locks =>
    intro l hl
    obtain hl | hl := Transfer.mem_locks_or_deliveries
      ((c.step_keepsCopies s.now s.broker).locks.mem_iff.mp hl)
    · exact hkept (h.locks l hl)
    · cases ht : c.transfer s.broker with
      | take r most =>
        rw [ht] at hl
        obtain ⟨hid, he, -⟩ := mem_lockAll hl
        obtain ⟨timeout, deadline, seen, rfl⟩ := Call.looking_of_take ht
        rw [hid, he]
        exact hkept (h.called i began _ hi r rfl)
      | _ => rw [ht] at hl; contradiction
  case held =>
    intro j began' d hj l hp
    obtain ⟨-, hj⟩ | ⟨rfl, rfl, k, rfl, hstep⟩ := settling_of_advance hi hj
    · exact h.held j began' d hj l hp
    · cases Settle.step_on hstep with
      | released l' _ hmem _ hid =>
        cases hp
        have hr' := h.called _ _ _ hi k.receiver rfl
        exact congrArg Receiver.entity (h.distinct _ (h.locks l hmem) k.receiver hr' hid)
      | _ => contradiction

end Manned

/-- In every traffic that can be reached, receivers are known by their numbers. -/
theorem Reachable.manned {s : Traffic} (h : s.Reachable) : s.Manned := by
  obtain ⟨supply, h⟩ := h
  refine h.invariant (P := Manned) ?_ ?_ ?_ ?_ ?_ ?_
  · exact ⟨fun _ hr => by contradiction, fun _ hr => by contradiction,
      fun _ _ _ hi => by contradiction, fun _ hl => by contradiction,
      fun _ _ _ hi => by contradiction⟩
  · intro s q hq ih
    have hreceivers := receivers_accept s q
    refine ⟨hreceivers ▸ ih.numbered, hreceivers ▸ ih.distinct, ?_, hreceivers ▸ ih.locks, ?_⟩
    · intro j began c hj r hr
      rw [hreceivers]
      obtain hj | ⟨-, rfl⟩ := call_of_accept hj
      · exact ih.called j began c hj r hr
      · refine hq r ?_
        cases q <;> exact hr
    · intro j began d hj l hp
      obtain hj | ⟨-, hd⟩ := settling_of_accept hj
      · exact ih.held j began d hj l hp
      · rw [hp] at hd
        contradiction
  · exact fun s i began c hi hr ih => ih.advance hi hr
  · intro s i began c hi ih
    have hreceivers := receivers_dropReceive hi
    have hk := c.drop_keepsCopies s.broker
    have hnext : (s.dropReceive i began c).broker.nextReceiver = s.broker.nextReceiver := by
      simp only [dropReceive, Receive.drop]
      split <;> rfl
    refine ⟨?_, hreceivers ▸ ih.distinct, ?_, ?_, ?_⟩
    · rw [hreceivers, hnext]
      exact ih.numbered
    · rw [hreceivers]
      exact fun j began' k hj => ih.called j began' k (call_of_dropReceive hi hj)
    · rw [hreceivers]
      exact fun l hl => ih.locks l (hk.locks.mem_iff.mp hl)
    · exact fun j began' d hj => ih.held j began' d (call_of_dropReceive hi hj)
  · exact fun s ms ih => ⟨ih.numbered, ih.distinct, ih.called, ih.locks, ih.held⟩
  · exact fun s locks hp ih =>
      ⟨ih.numbered, ih.distinct, ih.called, fun l hl => ih.locks l (hp.mem_iff.mp hl), ih.held⟩

end Traffic

/-! ## Subscriptions -/

/-- The paths of the subscriptions that were registered for a topic, each of them once. -/
def pathsOf (registered : List (String × String)) (topic : String) : List String :=
  ((registered.filter (·.1 = topic)).map fun p => (EntityPath.subscription p.1 p.2).text).eraseDups

/-- The entities that a message for a target is copied into: the subscriptions that were
registered for it, or the target itself if there are none. -/
def entitiesFor (registered : List (String × String)) (target : String) : List String :=
  if pathsOf registered target = [] then [target] else pathsOf registered target

/-- A path that is registered again is not added again. -/
theorem eraseDups_concat (paths : List String) (path : String) :
    (paths ++ [path]).eraseDups =
      if paths.eraseDups.contains path then paths.eraseDups else paths.eraseDups ++ [path] := by
  rw [List.eraseDups_append]
  by_cases hp : path ∈ paths
  · simp [List.removeAll, hp]
  · simp [List.removeAll, hp, List.eraseDups_cons]

theorem nodup_eraseDups (paths : List String) : paths.eraseDups.Nodup := by
  induction paths using List.reverseRecOn with
  | nil => exact List.nodup_nil
  | append_singleton paths path ih =>
    rw [eraseDups_concat]
    split
    · exact ih
    · next hp =>
      refine List.nodup_append.mpr ⟨ih, List.nodup_singleton path, fun p hmem q hq => ?_⟩
      rw [List.mem_singleton.mp hq]
      rintro rfl
      exact hp (List.contains_iff_mem.mpr hmem)

/-- No message is copied into an entity twice. -/
theorem nodup_entitiesFor (registered : List (String × String)) (target : String) :
    (entitiesFor registered target).Nodup := by
  unfold entitiesFor
  split
  · exact List.nodup_singleton target
  · exact nodup_eraseDups _

theorem pathsOf_concat (registered : List (String × String)) (topic name t : String) :
    pathsOf (registered ++ [(topic, name)]) t =
      if t = topic then
        if (pathsOf registered topic).contains (EntityPath.subscription topic name).text then
          pathsOf registered topic
        else pathsOf registered topic ++ [(EntityPath.subscription topic name).text]
      else pathsOf registered t := by
  unfold pathsOf
  rw [List.filter_append, List.map_append]
  by_cases ht : t = topic
  · subst ht
    rw [if_pos rfl, ← eraseDups_concat]
    simp
  · rw [if_neg ht]
    simp [Ne.symm ht]

namespace Traffic

/-- The subscription that a move registers, as its topic and its name. -/
def registrations (s : Traffic) : Move → List (String × String)
  | .advance i =>
    match s.calls[i]? with
    | some ⟨_, .on (.subscribing topic name)⟩ => [(topic, name)]
    | _ => []
  | _ => []

/-- The subscriptions that some moves register, one after the other. -/
def registrationsOver (s : Traffic) (moves : List Move) : List (String × String) :=
  notesOver registrations s moves

/-- The subscriptions of each topic are those that were registered. -/
def Registered (s : Traffic) (registered : List (String × String)) : Prop :=
  ∀ topic, s.broker.subscriptions.getD topic [] = pathsOf registered topic

namespace Registered

variable {s t : Traffic} {registered : List (String × String)}

theorem step (h : s.Registered registered) {m : Move} (hm : s.after m = some t) :
    t.Registered (registered ++ s.registrations m) := by
  have hsame {rs : List (String × String)} (hr : rs = []) {u : Traffic}
      (hu : u.broker.subscriptions = s.broker.subscriptions) : u.Registered (registered ++ rs) := by
    rw [hr, List.append_nil, Registered, hu]
    exact h
  obtain ⟨q, rfl, -, rfl⟩ | ⟨i, began, c, rfl, hi, -, rfl⟩ | ⟨i, began, c, rfl, hi, rfl⟩ |
    ⟨ms, rfl, rfl⟩ | ⟨locks, rfl, -, rfl⟩ := after_cases hm
  · exact hsame rfl rfl
  · by_cases hc : ∃ topic name, c = .subscribing topic name
    · obtain ⟨topic, name, rfl⟩ := hc
      have hr : s.registrations (.advance i) = [(topic, name)] := by simp only [registrations, hi]
      intro t
      rw [hr, pathsOf_concat, ← h topic, ← h t]
      simp only [Traffic.advance, Call.step, createSubscription, addEntity, Table.getD_put]
    · have hr : s.registrations (.advance i) = [] := by
        unfold registrations
        simp only [hi]
        split
        · next he =>
          cases he
          exact (hc ⟨_, _, rfl⟩).elim
        · rfl
      refine hsame hr ?_
      obtain hs | ⟨path, rfl⟩ | hsub := c.step_registers s.now s.broker
      · exact hs.subscriptions
      · rfl
      · exact (hc hsub).elim
  · refine hsame rfl ?_
    simp only [dropReceive, Receive.drop]
    split <;> rfl
  · exact hsame rfl rfl
  · exact hsame rfl rfl

/-- Messages are copied into the subscriptions that were registered. -/
theorem destinations_eq (h : s.Registered registered) (target : String) :
    s.broker.destinations target = entitiesFor registered target := by
  have hpaths := h target
  rw [Table.getD] at hpaths
  unfold destinations entitiesFor
  rw [← hpaths]
  cases s.broker.subscriptions.get? target with
  | none => rfl
  | some paths => cases paths <;> simp

end Registered

theorem registered_of_run {supply : Identifier.Supply} {moves : List Move} {s : Traffic}
    (h : run (start supply) moves = some s) :
    s.Registered (registrationsOver (start supply) moves) := by
  have hs : s.Registered ([] ++ notesOver registrations (start supply) moves) :=
    keeps_of_run h (fun _ => rfl) fun _ _ _ _ hs hm => Registered.step hs hm
  exact hs

end Traffic

end PeekLock.Broker
