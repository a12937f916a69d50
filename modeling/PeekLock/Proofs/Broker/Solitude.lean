import PeekLock.Proofs.Broker.Runs
import PeekLock.Proofs.Broker.Sections
import PeekLock.Proofs.EntityPath

/-!
# PeekLock.Proofs.Broker.Solitude

Calls of the in-memory bus that are made one after the other.

A call that has the bus to itself takes its steps up to the end (`Takes`).
Whatever is made of such calls is a traffic on which nothing is under way
(`Attained`), so what holds of every traffic that can be reached holds
there.
-/

namespace PeekLock.Broker

/-- A call that has the bus to itself takes it from one state to another in so many steps, and
ends so. -/
inductive Call.Takes (now : Nat) : Call → Broker → Broker → Outcome → Nat → Prop where
  | last {b : Broker} {c : Call} {o : Outcome} (hr : c.isReady now b = true)
    (hp : (c.step now b).progress = .done o) : Takes now c b (c.step now b).state o 1
  | step {b b' : Broker} {c c' : Call} {o : Outcome} {n : Nat} (hr : c.isReady now b = true)
    (hp : (c.step now b).progress = .on c') (h : Takes now c' (c.step now b).state b' o n) :
    Takes now c b b' o (n + 1)

/-- The first step of a call, by what it leaves behind. -/
theorem Call.Takes.of_step {now : Nat} {b b' : Broker} {c c' : Call} {o : Outcome} {n : Nat}
    {r : Step Broker Call Outcome} (hs : c.step now b = r) (hr : c.isReady now b = true)
    (hp : r.progress = .on c') (h : c'.Takes now r.state b' o n) :
    c.Takes now b b' o (n + 1) := by
  subst hs
  exact .step hr hp h

namespace Traffic

/-- A call that is left alone goes on to its end. -/
theorem exists_done_of_takes {s : Traffic} {b' : Broker} {c : Call} {o : Outcome} {began : Nat}
    {i n : Nat} (hi : s.calls[i]? = some ⟨began, .on c⟩) (h : c.Takes s.now s.broker b' o n) :
    ∃ t, s.Leads t ∧ t.now = s.now ∧ t.broker = b' ∧ t.calls = s.calls.set i ⟨began, .done o⟩ := by
  generalize hnow : s.now = now at h
  generalize hbroker : s.broker = b at h
  induction h generalizing s with
  | @last b c o hr hp =>
    subst hnow hbroker
    exact ⟨_, .step (.refl s) (after_advance hi hr), rfl, rfl,
      congrArg (fun p => s.calls.set i ⟨began, p⟩) hp⟩
  | @step b b' c c' o n hr hp h ih =>
    subst hnow hbroker
    have hnext := getElem?_advance hi
    rw [hp] at hnext
    obtain ⟨t, ht, hnow, hb, hcalls⟩ := ih hnext rfl rfl
    refine ⟨t, (Leads.step (.refl s) (after_advance hi hr)).trans ht, hnow, hb, hcalls.trans ?_⟩
    exact List.set_set ..

end Traffic

/-- The bus has come to a state by calls that were made one after the other without delay, and
some receivers were created. -/
def Attained (b : Broker) (receivers : List Receiver) : Prop :=
  ∃ t : Traffic, t.Reachable ∧ t.now = 0 ∧ t.broker = b ∧ t.receivers = receivers ∧
    ∀ x ∈ t.calls, ∃ o, x.progress = .done o

theorem attained_new (supply : Identifier.Supply) : Attained { supply } [] :=
  ⟨.start supply, ⟨supply, .refl _⟩, rfl, rfl, rfl, fun _ hx => absurd hx List.not_mem_nil⟩

/-- The receiver that an outcome creates. -/
def Outcome.created? : Outcome → Option Receiver
  | .opened (.ok r) => some r
  | _ => none

/-- One more call is made. -/
theorem Attained.ask {b b' : Broker} {receivers : List Receiver} (h : b.Attained receivers)
    {q : Request} (hq : q.receiver? = none) {o : Outcome} {n : Nat}
    (ht : q.call.Takes 0 b b' o n) :
    b'.Attained (receivers ++ o.created?.toList) := by
  obtain ⟨t, hreach, hnow, rfl, rfl, hdone⟩ := h
  have hbegin : t.after (.begin q) = some (t.accept q) := by
    rw [Traffic.after, hq]
    rfl
  rw [← hnow] at ht
  obtain ⟨u, hu, hunow, rfl, hcalls⟩ := Traffic.exists_done_of_takes (s := t.accept q)
    (i := t.calls.length) List.getElem?_concat_length ht
  have hset : (t.accept q).calls.set t.calls.length ⟨t.now, .done o⟩ =
      t.calls ++ [⟨t.now, .done o⟩] := by
    rw [Traffic.accept, List.set_append_right _ _ (Nat.le_refl _), Nat.sub_self]
    rfl
  rw [hset] at hcalls
  refine ⟨u, (Traffic.Reachable.leads hreach (.step (.refl t) hbegin)).leads hu,
    hunow.trans hnow, rfl, ?_, fun x hx => ?_⟩
  · rw [Traffic.receivers, hcalls, List.filterMap_append]
    refine congrArg (t.receivers ++ ·) ?_
    cases o with
    | opened result => cases result <;> rfl
    | _ => rfl
  · rw [hcalls, List.mem_append, List.mem_singleton] at hx
    obtain hx | rfl := hx
    · exact hdone x hx
    · exact ⟨o, rfl⟩

/-! ## The calls -/

/-- Nothing was taken from the bus yet, no receiver is closed, and no fault is shown. -/
structure Unused (b : Broker) : Prop where
  locks : b.locks = []
  completed : b.completed = []
  abandoned : b.abandoned = []
  closed : b.closed = []
  faults : b.faults = {}

theorem unused_new (supply : Identifier.Supply) : Unused { supply } := ⟨rfl, rfl, rfl, rfl, rfl⟩

theorem Unused.createSubscription {b : Broker} (h : b.Unused) (topic name : String) :
    (b.createSubscription topic name).Unused :=
  ⟨h.locks, h.completed, h.abandoned, h.closed, h.faults⟩

/-- The id of a message that is sent, and the bus after that. -/
def sent (b : Broker) (now : Nat) (target : String) (body : List UInt8) (options : SendOptions) :
    String × Broker :=
  let built := b.buildMessage now body options
  (built.1.id, (built.2.enqueue target built.1).broadcast)

/-- What a send does beside the queues. -/
theorem sent_frame (b : Broker) (now : Nat) (target : String) (body : List UInt8)
    (options : SendOptions) : ∃ queues copies broadcasts,
      (b.sent now target body options).2 =
        { (b.buildMessage now body options).2 with
          queues := queues, copies := copies, broadcasts := broadcasts } := by
  unfold sent broadcast
  dsimp only
  rw [enqueue_frame]
  exact ⟨_, _, _, rfl⟩

/-- A message that is sent without an id is given the next one. -/
theorem buildMessage_eq {options : SendOptions} (h : options.messageId = none) (b : Broker)
    (now : Nat) (body : List UInt8) : b.buildMessage now body options =
      (⟨b.supply.nth b.issued, body, ⟨""⟩, options.contentType, options.properties,
        .ofMillis now, 0⟩, { b with issued := b.issued + 1 }) := by
  simp only [buildMessage, h]

theorem Unused.sent {b : Broker} (h : b.Unused) {options : SendOptions}
    (ho : options.messageId = none) (now : Nat) (target : String) (body : List UInt8) :
    (b.sent now target body options).2.Unused := by
  obtain ⟨queues, copies, broadcasts, heq⟩ := sent_frame b now target body options
  rw [heq, buildMessage_eq ho]
  exact ⟨h.locks, h.completed, h.abandoned, h.closed, h.faults⟩

theorem issued_sent {options : SendOptions} (h : options.messageId = none) (b : Broker)
    (now : Nat) (target : String) (body : List UInt8) :
    (b.sent now target body options).2.issued = b.issued + 1 := by
  obtain ⟨queues, copies, broadcasts, heq⟩ := sent_frame b now target body options
  rw [heq, buildMessage_eq h]

/-- Building a message draws identifiers, and does nothing else. -/
theorem buildMessage_frame (b : Broker) (now : Nat) (body : List UInt8) (options : SendOptions) :
    ∃ n, (b.buildMessage now body options).2 = { b with issued := n } := by
  unfold buildMessage
  split
  · exact ⟨b.issued, rfl⟩
  · exact ⟨b.issued + 1, rfl⟩

theorem subscriptions_sent (b : Broker) (now : Nat) (target : String) (body : List UInt8)
    (options : SendOptions) :
    (b.sent now target body options).2.subscriptions = b.subscriptions := by
  obtain ⟨queues, copies, broadcasts, heq⟩ := sent_frame b now target body options
  obtain ⟨n, hbuilt⟩ := buildMessage_frame b now body options
  rw [heq, hbuilt]

theorem supply_sent (b : Broker) (now : Nat) (target : String) (body : List UInt8)
    (options : SendOptions) : (b.sent now target body options).2.supply = b.supply := by
  obtain ⟨queues, copies, broadcasts, heq⟩ := sent_frame b now target body options
  obtain ⟨n, hbuilt⟩ := buildMessage_frame b now body options
  rw [heq, hbuilt]

theorem queue_sent (b : Broker) (now : Nat) (target : String) (body : List UInt8)
    (options : SendOptions) (e : String) :
    (b.sent now target body options).2.queue e = b.queue e ++
      copiesIn e (copiesFor (b.buildMessage now body options).1 b.copies
        (b.destinations target)) := by
  obtain ⟨n, hbuilt⟩ := buildMessage_frame b now body options
  unfold sent
  dsimp only
  rw [hbuilt]
  exact queue_enqueue _ _ _ e

theorem takes_send {target : String} (h : checkTarget target = .ok ()) (now : Nat) (b : Broker)
    (body : List UInt8) (options : SendOptions) :
    (Request.send target body options).call.Takes now b (b.sent now target body options).2
      (.sent (.ok (b.sent now target body options).1)) 3 := by
  have hcheck : (Send.checking target body options).step now b =
      { state := (b.buildMessage now body options).2
        progress := .on (.enqueueing target (b.buildMessage now body options).1) } := by
    simp only [Send.step, h]
  have hstep : (Call.sending (.checking target body options)).step now b =
      { state := (b.buildMessage now body options).2
        progress := .on (.sending (.enqueueing target (b.buildMessage now body options).1)) } := by
    simp only [Call.step, hcheck]
    rfl
  exact .of_step hstep rfl rfl (.step rfl rfl (.last rfl rfl))

theorem takes_createSubscription (topic name : String) (now : Nat) (b : Broker) :
    (Request.createSubscription topic name).call.Takes now b (b.createSubscription topic name)
      .subscribed 1 :=
  .last rfl rfl

/-- The bus after the creation of a receiver. -/
def opened (b : Broker) (entity : String) : Broker :=
  { b.addEntity entity with nextReceiver := b.nextReceiver + 1 }

theorem Unused.opened {b : Broker} (h : b.Unused) (entity : String) : (b.opened entity).Unused :=
  ⟨h.locks, h.completed, h.abandoned, h.closed, h.faults⟩

theorem step_checking {b : Broker} {entity : String} {path : EntityPath}
    (hp : EntityPath.parse entity = .ok path) (hr : b.faults.rejected = []) :
    (Open.checking entity).step b = { state := b, progress := .on (.registering entity) } := by
  simp only [Open.step, hp, hr, EntityPath.text_of_parse hp, List.contains_nil,
    Bool.false_eq_true, if_false]

theorem takes_createReceiver {b : Broker} {entity : String} {path : EntityPath}
    (hp : EntityPath.parse entity = .ok path) (hr : b.faults.rejected = []) (now : Nat) :
    (Request.createReceiver entity).call.Takes now b (b.opened entity)
      (.opened (.ok ⟨b.nextReceiver, entity⟩)) 2 := by
  have hstep : (Call.opening (.checking entity)).step now b =
      { state := b, progress := .on (.opening (.registering entity)) } := by
    simp only [Call.step, step_checking hp hr]
    rfl
  exact .of_step hstep rfl rfl (.last rfl rfl)

end PeekLock.Broker
