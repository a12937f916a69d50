import PeekLock.Proofs.Broker.DeliveryCounts
import PeekLock.Proofs.Broker.Registrations

/-!
# PeekLock.Proofs.Broker.Fanout

Where a message goes that is sent to a topic.

A message is copied once into each subscription that was registered for its
target, however often it was registered, and into the target itself if
there are none.  Of the steps of a send one makes the copies, and it does
nothing else; the others move nothing (`Send.Does`).  From then on each
copy is on its own: a settlement changes nothing but the copies of the
entity of its receiver (`Traffic.SameCopies`).
-/

namespace PeekLock.Broker

open Identifier (counting)

/-! ## What a send does -/

/-- Nothing was put into a queue, locked, completed or abandoned. -/
structure Unmoved (before after : Broker) : Prop where
  queue : ∀ e, after.queue e = before.queue e
  locks : after.locks = before.locks
  completed : after.completed = before.completed
  abandoned : after.abandoned = before.abandoned

/-- A message was copied to the end of the queue of each of some entities, with the next numbers,
and nothing else has changed. -/
structure Copied (before after : Broker) (entities : List String) (m : Message) : Prop where
  queue : ∀ e, after.queue e = before.queue e ++
    if e ∈ entities then [⟨before.copies + entities.idxOf e, m⟩] else []
  locks : after.locks = before.locks
  completed : after.completed = before.completed
  abandoned : after.abandoned = before.abandoned

/-- Of the copies that a message makes, one is for each entity. -/
theorem copiesIn_copiesFor (m : Message) (n : Nat) {entities : List String} (h : entities.Nodup)
    (e : String) : copiesIn e (copiesFor m n entities) =
      if e ∈ entities then [⟨n + entities.idxOf e, m⟩] else [] := by
  induction entities generalizing n with
  | nil => rfl
  | cons key rest ih =>
    rw [List.nodup_cons] at h
    have hrest := ih (n + 1) h.2
    rw [copiesIn] at hrest ⊢
    rw [copiesFor, List.filter_cons]
    by_cases he : key = e
    · subst he
      rw [if_neg h.1] at hrest
      simp [hrest]
    · have hidx : (key :: rest).idxOf e = rest.idxOf e + 1 := List.idxOf_cons_ne _ he
      rw [if_neg (by simpa using he), hrest, hidx, Nat.add_right_comm, Nat.add_assoc]
      simp [Ne.symm he]

theorem copied_enqueue {b : Broker} {target : String} {entities : List String}
    (h : b.destinations target = entities) (hd : entities.Nodup) (m : Message) :
    Copied b (b.enqueue target m) entities m := by
  refine ⟨fun e => ?_, ?_, ?_, ?_⟩
  · rw [queue_enqueue, h, copiesIn_copiesFor m _ hd]
  all_goals rw [enqueue_frame]

theorem copied_sent {b : Broker} {target : String} {entities : List String}
    (h : b.destinations target = entities) (hd : entities.Nodup) (now : Nat)
    (body : List UInt8) (options : SendOptions) :
    Copied b (b.sent now target body options).2 entities (b.buildMessage now body options).1 := by
  obtain ⟨queues, copies, broadcasts, hsent⟩ := sent_frame b now target body options
  obtain ⟨n, hbuilt⟩ := buildMessage_frame b now body options
  refine ⟨fun e => ?_, ?_, ?_, ?_⟩
  · rw [queue_sent, h, copiesIn_copiesFor _ _ hd]
  all_goals rw [hsent, hbuilt]

/-- Messages can be sent to queues, and to nothing else. -/
theorem checkTarget_eq_ok_iff_queue {target : String} :
    checkTarget target = .ok () ↔ ∃ name, EntityPath.parse target = .ok (.queue name) := by
  unfold checkTarget
  constructor
  · intro h
    split at h
    · contradiction
    · next name hp => exact ⟨name, hp⟩
    · contradiction
  · rintro ⟨name, hp⟩
    rw [hp]

/-- What a step of a send does, where messages for a target are copied into such entities, and how
the send goes on. -/
inductive Send.Does (entities : String → List String) (before after : Broker) :
    Send → Progress Send (Except BusError String) → Prop where
  /-- The target is no queue. -/
  | refused {target text : String} {body : List UInt8} {options : SendOptions}
    (hp : ∀ name, EntityPath.parse target ≠ .ok (.queue name)) (hb : after = before) :
    Does entities before after (.checking target body options)
      (.done (.error (.invalidQueueName text)))
  /-- The message is built. -/
  | letThrough {target name : String} {body : List UInt8} {options : SendOptions} {m : Message}
    (hp : EntityPath.parse target = .ok (.queue name)) (hm : m.Carries body options)
    (hc : m.deliveryCount = 0) (hb : Unmoved before after) :
    Does entities before after (.checking target body options) (.on (.enqueueing target m))
  | copied {target : String} {m : Message} (hc : m.deliveryCount = 0)
    (hb : Copied before after (entities target) m) :
    Does entities before after (.enqueueing target m) (.on (.announcing target m.id))
  | told {target id : String} (hb : Unmoved before after) :
    Does entities before after (.announcing target id) (.done (.ok id))

/-- Every step of a send does one of these. -/
theorem Send.does_step {b : Broker} {entities : String → List String}
    (h : ∀ target, b.destinations target = entities target) (hd : ∀ target, (entities target).Nodup)
    (now : Nat) {c : Send} (hc : ∀ m, Call.outgoing? (.sending c) = some m → m.deliveryCount = 0) :
    c.Does entities b (c.step now b).state (c.step now b).progress := by
  cases c with
  | checking target body options =>
    obtain ⟨n, hbuilt⟩ := buildMessage_frame b now body options
    cases ht : checkTarget target with
    | error e =>
      obtain ⟨text, rfl⟩ := invalidQueueName_of_checkTarget ht
      simp only [Send.step, ht]
      refine .refused (fun name hp => ?_) rfl
      rw [checkTarget_eq_ok_iff_queue.mpr ⟨name, hp⟩] at ht
      contradiction
    | ok _ =>
      obtain ⟨name, hp⟩ := checkTarget_eq_ok_iff_queue.mp ht
      simp only [Send.step, ht, hbuilt]
      exact .letThrough hp (carries_buildMessage b now body options)
        (deliveryCount_buildMessage b now body options) ⟨fun _ => rfl, rfl, rfl, rfl⟩
  | enqueueing target m => exact .copied (hc m rfl) (copied_enqueue (h target) (hd target) m)
  | announcing target id => exact .told ⟨fun _ => rfl, rfl, rfl, rfl⟩

/-- A send to anything but a queue takes one step, and changes nothing. -/
theorem takes_send_refused {target : String}
    (h : ∀ name, EntityPath.parse target ≠ .ok (.queue name)) (now : Nat) (b : Broker)
    (body : List UInt8) (options : SendOptions) :
    ∃ text, (Request.send target body options).call.Takes now b b
      (.sent (.error (.invalidQueueName text))) 1 := by
  cases ht : checkTarget target with
  | error e =>
    obtain ⟨text, rfl⟩ := invalidQueueName_of_checkTarget ht
    have hstep : (Request.send target body options).call.step now b =
        { state := b, progress := .done (.sent (.error (.invalidQueueName text))) } := by
      simp only [Request.call, Call.step, Send.step, ht]
      rfl
    have hlast : (Request.send target body options).call.Takes now b
        ((Request.send target body options).call.step now b).state
        (.sent (.error (.invalidQueueName text))) 1 :=
      .last rfl (by rw [hstep])
    rw [hstep] at hlast
    exact ⟨text, hlast⟩
  | ok _ =>
    obtain ⟨name, hp⟩ := checkTarget_eq_ok_iff_queue.mp ht
    exact (h name hp).elim

/-! ## What a settlement leaves alone -/

namespace Traffic

/-- The copies of an entity are as they were: those that wait, those that are locked or in the
hands of a call, and the records of them. -/
structure SameCopies (s t : Traffic) (e : String) : Prop where
  queue : t.broker.queue e = s.broker.queue e
  locks : t.broker.locks.filter (·.entity = e) = s.broker.locks.filter (·.entity = e)
  hands : t.hands.filter (·.entity = e) = s.hands.filter (·.entity = e)
  completed : ∀ a ∈ s.arrivals, a.entity = e →
    t.broker.completed.filter (·.serial = a.copy.serial) =
      s.broker.completed.filter (·.serial = a.copy.serial)
  abandoned : ∀ a ∈ s.arrivals, a.entity = e →
    t.broker.abandoned.filter (·.serial = a.copy.serial) =
      s.broker.abandoned.filter (·.serial = a.copy.serial)

/-- A step whose call holds no copy of an entity, neither before nor after it, leaves those that
are in the hands of the calls. -/
theorem filter_hands_advance {s : Traffic} {i began : Nat} {c : Call} {e : String}
    (hi : s.calls[i]? = some ⟨began, .on c⟩)
    (before : ∀ l, (c.transfer s.broker).putsDown? = some l → l.entity ≠ e)
    (after : ∀ l, (c.transfer s.broker).takesUp? = some l → l.entity ≠ e) :
    (s.advance i began c).hands.filter (·.entity = e) = s.hands.filter (·.entity = e) := by
  have hnone {x : Option Lock} (hx : ∀ l, x = some l → l.entity ≠ e) :
      x.filter (·.entity = e) = none := by
    rw [Option.filter_eq_none_iff]
    exact fun l hl => by simpa using hx l hl
  rw [hands, hands, List.filter_filterMap, List.filter_filterMap]
  refine filterMap_set_of_eq hi ?_
  have hbefore : Entry.held? ⟨began, .on c⟩ = (c.transfer s.broker).putsDown? :=
    c.held?_eq_putsDown? s.broker
  rw [Call.held?_step, hbefore, hnone before, hnone after]

/-- A record of one copy leaves those of another. -/
theorem filter_concat_of_ne {records : List Copy} {c : Copy} {n : Nat} (h : c.serial ≠ n) :
    (records ++ [c]).filter (·.serial = n) = records.filter (·.serial = n) := by
  rw [List.filter_append, List.filter_cons_of_neg (by simpa using h), List.filter_nil,
    List.append_nil]

/-- The copy of a lock in the hands of a call has a number that no copy of another entity has. -/
theorem Reachable.serial_ne_of_hands {s : Traffic} (h : s.Reachable) {l : Lock} (hl : l ∈ s.hands)
    {a : Placement} (ha : a ∈ s.arrivals) (hne : l.entity ≠ a.entity) :
    l.copy.serial ≠ a.copy.serial := by
  intro hs
  obtain ⟨a', ha', he, hla⟩ := h.ledger.traced l.entity l.copy (.inHands l hl rfl rfl)
  rw [← he, h.ledger.eq_of_serial ha' ha (hla.serial.symm.trans hs)] at hne
  exact hne rfl

namespace SameCopies

variable {s : Traffic} {i began : Nat} {c : Settle} {l : Lock} {e : String}

/-- A step that moves nothing changes no copy. -/
theorem of_unmoved (hi : s.calls[i]? = some ⟨began, .on (.settling c)⟩)
    (ht : (Call.settling c).transfer s.broker = .nothing)
    (hb : Unmoved s.broker (c.step s.broker).state) :
    s.SameCopies (s.advance i began (.settling c)) e where
  queue := hb.queue e
  locks := congrArg (·.filter (·.entity = e)) hb.locks
  hands := filter_hands_advance hi (by rw [ht]; nofun) (by rw [ht]; nofun)
  completed a _ _ := congrArg (·.filter (·.serial = a.copy.serial)) hb.completed
  abandoned a _ _ := congrArg (·.filter (·.serial = a.copy.serial)) hb.abandoned

/-- The step that releases a lock takes no other away. -/
theorem of_release (hm : Minted s.broker) (hi : s.calls[i]? = some ⟨began, .on (.settling c)⟩)
    (ht : (Call.settling c).transfer s.broker = .release l)
    (hb : (c.step s.broker).state = s.broker.unlock l.token) (he : l.entity ≠ e) :
    s.SameCopies (s.advance i began (.settling c)) e := by
  have hbroker : (s.advance i began (.settling c)).broker = s.broker.unlock l.token := hb
  have hl : l ∈ s.broker.locks := Call.mem_locks_of_release ht
  constructor
  case queue => rw [hbroker]; rfl
  case locks =>
    rw [hbroker, unlock, List.filter_filter]
    refine List.filter_congr fun k hk => ?_
    by_cases hke : k.entity = e
    · have hkl : k.token ≠ l.token := fun htoken =>
        he (List.inj_on_of_nodup_map hm.distinct hk hl htoken ▸ hke)
      simp [hke, hkl]
    · simp [hke]
  case hands =>
    refine filter_hands_advance hi (fun k hk => ?_) fun k hk => ?_
    · rw [ht] at hk
      cases hk
    · rw [ht] at hk
      cases hk
      exact he
  case completed => rw [hbroker]; exact fun _ _ _ => rfl
  case abandoned => rw [hbroker]; exact fun _ _ _ => rfl

/-- The step that records what became of a copy writes no record of another one, and puts none
into a queue. -/
theorem of_recording (h : s.Reachable) (hi : s.calls[i]? = some ⟨began, .on (.settling c)⟩)
    (hp : c.point = .recording l) (he : l.entity ≠ e) :
    s.SameCopies (s.advance i began (.settling c)) e := by
  obtain ⟨r, token, verdict, point⟩ := c
  subst hp
  have hl : l ∈ s.hands := mem_hands hi rfl
  have hother {a : Placement} (ha : a ∈ s.arrivals) (hae : a.entity = e) :
      l.copy.serial ≠ a.copy.serial := h.serial_ne_of_hands hl ha (hae ▸ he)
  have hbroker : (s.advance i began (.settling ⟨r, token, verdict, .recording l⟩)).broker =
      Settle.record s.broker l verdict := rfl
  have hputs : ∀ k, ((Call.settling ⟨r, token, verdict, .recording l⟩).transfer
      s.broker).putsDown? = some k → k.entity ≠ e := by
    intro k hk
    rw [← Call.held?_eq_putsDown?] at hk
    cases hk
    exact he
  have htakes : ∀ k, ((Call.settling ⟨r, token, verdict, .recording l⟩).transfer
      s.broker).takesUp? = some k → k.entity ≠ e := by
    cases verdict <;> nofun
  have hhands := filter_hands_advance hi hputs htakes
  cases verdict with
  | complete =>
    exact ⟨rfl, rfl, hhands, fun a ha hae => filter_concat_of_ne (hother ha hae),
      fun _ _ _ => rfl⟩
  | abandon =>
    refine ⟨?_, rfl, hhands, fun _ _ _ => rfl, fun a ha hae => filter_concat_of_ne (hother ha hae)⟩
    rw [hbroker, Settle.record, queue_recordAbandoned, if_neg (Ne.symm he), List.nil_append]

end SameCopies

/-- **Copies are on their own**: no step of a settlement changes a copy of another entity than
that of its receiver. -/
theorem Reachable.sameCopies_of_settling {s : Traffic} (h : s.Reachable) {i began : Nat}
    {c : Settle} (hi : s.calls[i]? = some ⟨began, .on (.settling c)⟩) {e : String}
    (he : e ≠ c.receiver.entity) : s.SameCopies (s.advance i began (.settling c)) e := by
  have hr : c.receiver ∈ s.receivers := h.manned.called i began _ hi c.receiver rfl
  have hheld := h.manned.held i began c hi
  obtain ⟨r, token, verdict, point⟩ := c
  cases point with
  | readingFault =>
    refine .of_unmoved hi (by cases verdict <;> rfl) ?_
    simp only [Settle.step]
    split
    · split <;> exact ⟨fun _ => rfl, rfl, rfl, rfl⟩
    · exact ⟨fun _ => rfl, rfl, rfl, rfl⟩
  | releasing =>
    cases hl : s.broker.lock? r token with
    | none =>
      refine .of_unmoved hi (by simp only [Call.transfer, hl, Option.elim_none]) ?_
      simp only [Settle.step, hl]
      exact ⟨fun _ => rfl, rfl, rfl, rfl⟩
    | some l =>
      have ht : (Call.settling ⟨r, token, verdict, .releasing⟩).transfer s.broker =
          .release l := by simp only [Call.transfer, hl, Option.elim_some]
      have hb : (Settle.step s.broker ⟨r, token, verdict, .releasing⟩).state =
          s.broker.unlock l.token := by
        simp only [Settle.step, hl, (mem_of_lock? hl).2.1]
      exact .of_release h.minted hi ht hb fun hle => he (hle ▸ h.manned.entity_of_lock? hr hl)
  | recording l => exact .of_recording h hi rfl fun hle => he (hle ▸ hheld l rfl)
  | announcing =>
    exact .of_unmoved hi (by cases verdict <;> rfl) ⟨fun _ => rfl, rfl, rfl, rfl⟩

/-! ## Every run -/

/-- What is sent to a topic is fanned out to its subscriptions, and from then on the copies are on
their own. -/
structure FansOut (s : Traffic) (registered : List (String × String)) : Prop where
  /-- A send to a queue that nothing interrupts puts one copy of its message at the end of the
  queue of each entity that the target stands for, and does nothing else. -/
  alone : ∀ target name, EntityPath.parse target = .ok (.queue name) → ∀ now body options,
    ∃ b m, (Request.send target body options).call.Takes now s.broker b (.sent (.ok m.id)) 3 ∧
      m.Carries body options ∧ m.deliveryCount = 0 ∧
        s.broker.Copied b (entitiesFor registered target) m
  /-- One to anything else is refused, and changes nothing. -/
  refused : ∀ target, (∀ name, EntityPath.parse target ≠ .ok (.queue name)) →
    ∀ now body options, ∃ text, (Request.send target body options).call.Takes now s.broker
      s.broker (.sent (.error (.invalidQueueName text))) 1
  /-- Among other calls, each step of a send does its part of that. -/
  among : ∀ i began c t, s.calls[i]? = some ⟨began, .on (.sending c)⟩ →
    s.after (.advance i) = some t → ∃ p, t.calls[i]? = some ⟨began, p.map .sending .sent⟩ ∧
      c.Does (entitiesFor registered) s.broker t.broker p
  /-- A step of a settlement changes the copies of one entity only. -/
  settled : ∀ i began c t, s.calls[i]? = some ⟨began, .on (.settling c)⟩ →
    s.after (.advance i) = some t → ∀ e ≠ c.receiver.entity, s.SameCopies t e

/-- **Fan-out**: in every run, a message that is sent to a name goes once to each subscription that
was registered for it, or to the queue of that name if there is none, and nowhere else; a message
that is sent to anything else goes nowhere.  Whatever settles one copy leaves those of every
other entity alone. -/
theorem fansOut_of_run {supply : Identifier.Supply} {moves : List Move} {s : Traffic}
    (h : run (start supply) moves = some s) :
    s.FansOut (registrationsOver (start supply) moves) := by
  have hs : s.Reachable := reachable_of_run h
  have hdestinations := (registered_of_run h).destinations_eq
  have hnodup := nodup_entitiesFor (registrationsOver (start supply) moves)
  constructor
  case alone =>
    intro target name hp now body options
    have ht := takes_send (checkTarget_eq_ok_iff_queue.mpr ⟨name, hp⟩) now s.broker body options
    exact ⟨_, _, ht, carries_buildMessage _ _ _ _, deliveryCount_buildMessage _ _ _ _,
      copied_sent (hdestinations target) (hnodup target) now body options⟩
  case refused =>
    exact fun target hp now body options => takes_send_refused hp now s.broker body options
  case among =>
    intro i began c t hi hm
    obtain ⟨-, rfl⟩ := eq_advance hi hm
    exact ⟨_, getElem?_advance hi,
      Send.does_step hdestinations hnodup s.now fun m hc => hs.outgoing hi hc⟩
  case settled =>
    intro i began c t hi hm e he
    obtain ⟨-, rfl⟩ := eq_advance hi hm
    exact hs.sameCopies_of_settling hi he

/-- Two subscriptions of a topic, one of them registered twice; a message was sent to it, and one of
its copies was received and is about to be abandoned. -/
def twoSubscribers : List Move := [
  .begin (.createSubscription "jobs" "audit"), .advance 0,
  .begin (.createSubscription "jobs" "work"), .advance 1,
  .begin (.createSubscription "jobs" "audit"), .advance 2,
  .begin (.createReceiver "jobs/subscriptions/work"), .advance 3, .advance 3,
  .begin (.send "jobs" [1] { messageId := some "a" }), .advance 4, .advance 4, .advance 4,
  .begin (.receive ⟨0, "jobs/subscriptions/work"⟩ 1 .zero),
  .advance 5, .advance 5, .advance 5, .advance 5,
  .begin (.settle ⟨0, "jobs/subscriptions/work"⟩ ⟨counting.nth 0⟩ .abandon), .advance 6]

theorem fansOut_twoSubscribers : ∃ s, run {} twoSubscribers = some s ∧
    entitiesFor (registrationsOver {} twoSubscribers) "jobs" =
      ["jobs/subscriptions/audit", "jobs/subscriptions/work"] ∧
    entitiesFor (registrationsOver {} twoSubscribers) "orders" = ["orders"] ∧
    s.FansOut (registrationsOver {} twoSubscribers) := by
  have hrun : (run {} twoSubscribers).any fun _ =>
      entitiesFor (registrationsOver {} twoSubscribers) "jobs" =
        ["jobs/subscriptions/audit", "jobs/subscriptions/work"] ∧
      entitiesFor (registrationsOver {} twoSubscribers) "orders" = ["orders"] := by
    decide
  obtain ⟨s, hs, hp⟩ := (Option.any_eq_true _ _).mp hrun
  obtain ⟨hjobs, horders⟩ := of_decide_eq_true hp
  exact ⟨s, hs, hjobs, horders, fansOut_of_run hs⟩

end Traffic

end PeekLock.Broker
