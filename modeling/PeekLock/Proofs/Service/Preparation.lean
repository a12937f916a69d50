import PeekLock.Proofs.Service.Supplies
import PeekLock.Proofs.Session.Commands

/-!
# PeekLock.Proofs.Service.Preparation

How the service gets ready on the bus in memory.

Until the consumer is started, the session has nothing else to do than the
commands of the run, and each of them is over before the next begins.  So
every part of the run takes the world from one value to another (`Ends`),
and what matters of the world on the way is said once (`Stage`).
-/

namespace PeekLock.Service

open Session

variable {α β : Type} {s : Settings} {w w' : World} {b b' : Broker} {stats : Stats}
  {p? : Option Producer}

/-! ## Parts of the run -/

/-- A part of the run, in a session with nothing else to do, ends with a result and leaves a
world behind. -/
def Ends (act : Act α) (w : World) (a : α) (w' : World) : Prop :=
  act.run.run ⟨0, w, [], []⟩ = (.ok a, ⟨0, w', [], []⟩)

theorem ends_pure (a : α) (w : World) : Ends (pure a) w a w := rfl

/-- Parts of the run are carried out one after the other. -/
theorem Ends.bind {act : Act α} {f : α → Act β} {a : α} {c : β} {w'' : World}
    (h : Ends act w a w') (hf : Ends (f a) w' c w'') : Ends (act >>= f) w c w'' := by
  have hrun : (act >>= f).run.run ⟨0, w, [], []⟩ =
      match act.run.run ⟨0, w, [], []⟩ with
      | (.ok a, st) => (f a).run.run st
      | (.error e, st) => (.error e, st) := by
    simp only [ExceptT.run_bind, StateT.run_bind]
    split <;> next h => rw [h]; rfl
  rw [Ends, hrun, h]
  exact hf

theorem ends_note (level : Level) (text : String) (w : World) :
    Ends (note level text) w () (w.write [⟨level, .part "demo_service", text⟩]) := rfl

/-- A command is carried out. -/
theorem ends_ask {c : Command} {n : Nat}
    (h : Carries 0 { w with answer := none } (.command c) w' n) (hn : n ≤ Schedule.ample) :
    Ends (ask c) w w'.answer w' := by
  have hperform := h.perform hn
  have hask : (ask c).run.run ⟨0, w, [], []⟩ =
      let answered := Schedule.perform behaviour (·.answer.isSome) (.command c)
        ⟨0, { w with answer := none }, [], []⟩
      (.ok answered.shared.answer, answered) := rfl
  rw [Ends, hask, hperform]

/-- A command that has to succeed does. -/
theorem Ends.insist {c : Command} {answer : Option Answer} {failure : BusError → Failure}
    (h : Ends (ask c) w answer w') (he : errorOf answer = none) :
    Ends (insist failure c) w answer w' := by
  refine h.bind ?_
  rw [he]
  rfl

/-! ## Stages -/

/-- What matters of the world before there is a consumer. -/
structure Stage (b : Broker) (p? : Option Producer) (stats : Stats) (w : World) : Prop where
  medium : w.medium = .memory
  broker : w.bus.broker = b
  receivers : w.bus.receivers = []
  members : w.members = []
  consumers : w.consumers = .empty
  producer : w.producers.get? producerName = p?
  stats : w.stats = stats

theorem Stage.turned (h : Stage b p? stats w) (b' : Broker) (logs : List LogRecord)
    (answer : Option Answer) : Stage b' p? stats (w.turned b' logs answer) :=
  ⟨h.medium, rfl, h.receivers, h.members, h.consumers, h.producer, h.stats⟩

theorem Stage.write (h : Stage b p? stats w) (records : List LogRecord) :
    Stage b p? stats (w.write records) := by
  rw [World.write_eq]
  exact ⟨h.medium, h.broker, h.receivers, h.members, h.consumers, h.producer, h.stats⟩

/-- The service connects. -/
theorem ends_connect {supply : Identifier.Supply} (h : Stage { supply } p? stats w) :
    ∃ w', Ends (connect s true) w () w' ∧ Stage (connected supply s) p? stats w' := by
  unfold connect connected
  rw [if_pos rfl]
  have hplain : Ends (note .info "Using in-memory broker") w () (w.write _) := ends_note _ _ w
  cases htopic : s.bus.topic with
  | none => exact ⟨_, hplain, h.write _⟩
  | some topic =>
    cases hname : s.bus.subscription with
    | none => exact ⟨_, hplain, h.write _⟩
    | some name =>
      have hcarries : Carries 0 { w with answer := none }
          (.command (.createSubscription topic name))
          (w.turned (w.bus.broker.createSubscription topic name) w.logs (some .ok)) 1 :=
        .last rfl rfl rfl rfl
      refine ⟨_, (ends_ask hcarries (by decide)).bind (ends_note _ _ _), ?_⟩
      rw [h.broker]
      exact (h.turned _ _ _).write _

/-! ## Samples -/

/-- A producer is bound to its target, which can be sent to. -/
theorem checkTarget_of_new {target : String} {p : Producer} (h : Producer.new target = .ok p) :
    p.target = target ∧ Broker.checkTarget target = .ok () := by
  unfold Producer.new at h
  split at h
  · contradiction
  · next name hp =>
    cases h
    exact ⟨rfl, by rw [Broker.checkTarget, hp]⟩
  · contradiction

/-- The producer of the samples is created. -/
theorem ends_createProducer {target : String} {p : Producer} (h : Stage b none stats w)
    (hp : Producer.new target = .ok p) (failure : BusError → Failure) :
    ∃ answer w', Ends (insist failure (.createProducer producerName target)) w answer w' ∧
      Stage b (some p) stats w' := by
  let c : Command := .createProducer producerName target
  have hstep : step 0 { w with answer := none } (.command c) =
      halt ({ w with producers := w.producers.put producerName p }.reply (.producer p)) := by
    simp only [c, step, stepCommand, hp]
    rfl
  have hcarries : Carries 0 { w with answer := none } (.command c) _ 1 := .last rfl rfl hstep rfl
  have hends := ends_ask hcarries (by decide)
  refine ⟨_, _, hends.insist rfl, ⟨h.medium, h.broker, h.receivers, h.members, h.consumers, ?_,
    h.stats⟩⟩
  exact (Table.get?_put ..).trans (if_pos rfl)

/-- A sample is sent. -/
theorem ends_produceJson {p : Producer} (h : Stage b (some p) stats w)
    (hp : Producer.new s.bus.sendTarget = .ok p) (time : Nat → String) (k : Nat)
    (failure : BusError → Failure) :
    ∃ answer w', Ends (insist failure (.produceJson producerName (.json (sample (time k) k))
      (sampleOptions s))) w answer w' ∧ Stage (sentSample s time b k).2 (some p) stats w' := by
  obtain ⟨htarget, hcheck⟩ := checkTarget_of_new hp
  let w₀ : World := { w with answer := none }
  let c : Command := .produceJson producerName (.json (sample (time k) k)) (sampleOptions s)
  have hstep : step 0 w₀ (.command c) = goOn w₀ (.sending (.memoryOne (.checking s.bus.sendTarget
      (sampleBody time k) (Producer.jsonOptions (sampleOptions s))))) := by
    have hproducer : w₀.producers.get? producerName = some p := h.producer
    have hmedium : w₀.medium = .memory := h.medium
    simp only [c, step, stepCommand, withProducer, hproducer, Producer.sendJson, Producer.jsonBody,
      Except.map, Producer.send, hmedium, Bus.Send.one, htarget, sampleBody]
  have htakes := Broker.takes_send hcheck 0 b (sampleBody time k)
    (Producer.jsonOptions (sampleOptions s))
  rw [← h.broker] at htakes
  obtain ⟨logs, hsending⟩ := carries_sending (w := w₀) htakes rfl
  have hcarries : Carries 0 w₀ (.command c) _ 4 := .step rfl rfl hstep hsending
  have hends := ends_ask hcarries (by decide)
  refine ⟨_, _, hends.insist rfl, ?_⟩
  rw [sentSample, ← h.broker]
  exact h.turned _ _ _

/-- Noting a sample writes at most a record. -/
theorem ends_noteSent (answer : Option Answer) (h : Stage b p? stats w) :
    ∃ w', Ends (noteSent answer) w () w' ∧ Stage b p? stats w' := by
  unfold noteSent
  split
  · exact ⟨_, ends_note _ _ w, h.write _⟩
  · exact ⟨w, ends_pure () w, h⟩

/-- The samples are sent. -/
theorem ends_sendSamples {p : Producer} (hp : Producer.new s.bus.sendTarget = .ok p)
    (time : Nat → String) (sequence : List Nat) (h : Stage b (some p) stats w) :
    ∃ w', Ends (sendSamples s time sequence) w () w' ∧
      Stage (sentSamples s time b sequence) (some p) stats w' := by
  induction sequence generalizing b w with
  | nil => exact ⟨w, ends_pure () w, h⟩
  | cons k rest ih =>
    obtain ⟨answer, w₁, hsent, h₁⟩ := ends_produceJson h hp time k .ofError
    obtain ⟨w₂, hnoted, h₂⟩ := ends_noteSent answer h₁
    obtain ⟨w₃, hrest, h₃⟩ := ih h₂
    exact ⟨w₃, hsent.bind (hnoted.bind hrest), h₃⟩

/-- The samples are produced, and counted. -/
theorem ends_produce {p : Producer} (hp : Producer.new s.bus.sendTarget = .ok p)
    (time : Nat → String) (count : Nat) (h : Stage b none stats w) :
    ∃ w', Ends (produce s time count) w () w' ∧
      Stage (sentSamples s time b (List.range' 1 count)) (some p)
        (stats.recordSent (.ofNat count)) w' := by
  obtain ⟨answer, w₁, hcreated, h₁⟩ := ends_createProducer h hp .ofError
  obtain ⟨w₂, hsent, h₂⟩ := ends_sendSamples hp time (List.range' 1 count) h₁
  let w₃ : World := { w₂ with stats := w₂.stats.recordSent (.ofNat count) }
  have hcounted : Ends (modify fun st : State =>
      { st with shared := { st.shared with stats := st.shared.stats.recordSent (.ofNat count) } })
      w₂ () w₃ := rfl
  have h₃ : Stage (sentSamples s time b (List.range' 1 count)) (some p)
      (stats.recordSent (.ofNat count)) w₃ :=
    ⟨h₂.medium, h₂.broker, h₂.receivers, h₂.members, h₂.consumers, h₂.producer,
      congrArg (Stats.recordSent · _) h₂.stats⟩
  exact ⟨_, hcreated.bind (hsent.bind (hcounted.bind (ends_note _ _ _))), h₃.write _⟩

/-! ## The consumer -/

/-- What matters of the world once there is a consumer. -/
structure Prepared (s : Settings) (b : Broker) (r : Broker.Receiver) (stats : Stats) (w : World) :
    Prop where
  broker : w.bus.broker = b
  consumer : w.consumers.get? consumerName = some 0
  member : w.member 0 = ⟨{ settings := s.bus.consumer.normalized, receiver := 0 }, .service⟩
  receiver : (w.bus.receiver 0).source = .memory r
  stats : w.stats = stats

/-- The consumer takes the first place among the consumers, and its receiver among the
receivers. -/
theorem Stage.settleIn (h : Stage b p? stats w) (r : Broker.Receiver) :
    Prepared s b r stats (settleIn w (.consumer consumerName s.bus.consumer.normalized .service)
      (.ok (.memory r))) := by
  have hnone : w.consumers.get? consumerName = none := by
    rw [h.consumers]
    exact Table.get?_empty _
  have heq : Session.settleIn w (.consumer consumerName s.bus.consumer.normalized .service)
      (.ok (.memory r)) = { w with
        bus := { w.bus with receivers := [⟨.memory r, [], none⟩] }
        consumers := w.consumers.put consumerName 0
        members := [⟨{ settings := s.bus.consumer.normalized, receiver := 0 }, .service⟩]
        answer := some (.settings s.bus.consumer.normalized) } := by
    simp only [Session.settleIn, World.addReceiver, Bus.addReceiver, World.addConsumer,
      World.dropConsumer, World.reply, hnone, h.receivers, h.members, List.nil_append,
      List.length_nil]
  rw [heq]
  exact ⟨h.broker, (Table.get?_put ..).trans (if_pos rfl), rfl, rfl, h.stats⟩

/-- The consumer is created, on a receiver of its own. -/
theorem ends_createConsumer {path : EntityPath}
    (hp : EntityPath.parse s.bus.consumer.entity = .ok path) (hr : b.faults.rejected = [])
    (h : Stage b p? stats w) : ∃ w', Ends (createConsumer s) w () w' ∧
      Prepared s (b.opened s.bus.consumer.entity) ⟨b.nextReceiver, s.bus.consumer.entity⟩ stats
        w' := by
  let w₀ : World := { w with answer := none }
  let c : Command := .createConsumer consumerName s.bus.consumer .service .client
  let purpose := Purpose.consumer consumerName s.bus.consumer.normalized .service
  have hstep : step 0 w₀ (.command c) =
      goOn w₀ (.opening (.memory (.checking s.bus.consumer.entity)) purpose) := by
    have hmedium : w₀.medium = .memory := h.medium
    simp only [c, step, stepCommand, Session.createConsumer, hmedium, Bus.Open.start]
    rfl
  have htakes := Broker.takes_createReceiver hp hr 0
  rw [← h.broker] at htakes
  obtain ⟨logs, hopening⟩ := carries_opening (w := w₀) purpose htakes rfl
  have hcarries : Carries 0 w₀ (.command c) _ 3 := .step rfl rfl hstep hopening
  have hends := ends_ask hcarries (by decide)
  refine ⟨_, (hends.insist rfl).bind (ends_pure () _), ?_⟩
  rw [← h.broker]
  exact (h.turned _ _ _).settleIn _

/-- The samples are supplied: the service connects and produces them. -/
theorem ends_supply {p : Producer} (hp : Producer.new s.bus.sendTarget = .ok p)
    (supply : Identifier.Supply) (time : Nat → String) (count : Nat) : ∃ w,
      Ends (do connect s true; produce s time count) (atStart true supply).shared () w ∧
      Stage (sentSamples s time (connected supply s) (List.range' 1 count)) (some p)
        ⟨.ofNat count, 0, 0⟩ w := by
  have h₀ : Stage { supply } none {} (atStart true supply).shared :=
    ⟨rfl, rfl, rfl, rfl, rfl, Table.get?_empty _, rfl⟩
  obtain ⟨w₁, hconnected, h₁⟩ := ends_connect h₀
  obtain ⟨w₂, hproduced, h₂⟩ := ends_produce hp time count h₁
  have hstats : ({} : Stats).recordSent (.ofNat count) = ⟨.ofNat count, 0, 0⟩ := by
    rw [Stats.recordSent, UInt64.zero_add]
  exact ⟨w₂, hconnected.bind hproduced, hstats ▸ h₂⟩

end PeekLock.Service
