import PeekLock.Proofs.Broker.Solitude
import PeekLock.Proofs.Broker.Transfers
import PeekLock.Service.Run
import PeekLock.Settings.Validation

/-!
# PeekLock.Proofs.Service.Supplies

Where the samples of the service go.

What the service sends to and what it consumes are computed apart: the
target is the topic if there is one, the entity is written from topic and
subscription, and the bus writes the subscription that it registers once
more.  For valid settings the three agree (`destinations_connected`), so
the samples wait in the entity that is consumed, in their order, and
nowhere else (`Supplied`).
-/

namespace PeekLock.Service

variable {supply : Identifier.Supply} {s : Settings} {time : Nat → String} {count : Nat}
  {b : Broker}

/-! ## Names -/

/-- The bus in memory that the service connects to. -/
def connected (supply : Identifier.Supply) (s : Settings) : Broker :=
  match s.bus.topic, s.bus.subscription with
  | some topic, some name => Broker.createSubscription { supply } topic name
  | _, _ => { supply }

/-- Valid settings give both a topic and a subscription, or neither. -/
theorem isSome_topic_eq (h : s.violations = []) :
    s.bus.topic.isSome = s.bus.subscription.isSome := by
  simp only [Settings.violations, List.append_eq_nil_iff, Settings.whenever] at h
  obtain ⟨⟨⟨⟨⟨-, hpair⟩, -⟩, -⟩, -⟩, -⟩ := h
  simpa using hpair

theorem text_subscription (topic name : String) :
    (EntityPath.subscription topic name).text = s!"{topic}/subscriptions/{name}" := by
  refine String.toList_injective ?_
  simp [EntityPath.text, EntityPath.marker, toString]

/-- **The names agree**: what is sent to the target is copied into the entity that is consumed,
and nowhere else. -/
theorem destinations_connected (supply : Identifier.Supply) (h : s.violations = []) :
    (connected supply s).destinations s.bus.sendTarget = [s.bus.consumer.entity] := by
  have hboth := isSome_topic_eq h
  have hentity : s.bus.consumer.entity = s.bus.entity := rfl
  rw [hentity, BusSettings.sendTarget, BusSettings.entity, connected]
  cases htopic : s.bus.topic with
  | none => rfl
  | some topic =>
    cases hname : s.bus.subscription with
    | none =>
      rw [htopic, hname] at hboth
      contradiction
    | some name =>
      simp [Broker.destinations, Broker.createSubscription, Broker.addEntity, Table.getD,
        text_subscription]

/-! ## Samples -/

/-- The body of a sample. -/
def sampleBody (time : Nat → String) (sequence : Nat) : List UInt8 :=
  Text.Utf8.bytesOf (sample (time sequence) sequence).render

/-- The message of a sample, as it waits on a bus that nobody else uses. -/
def sampleMessage (supply : Identifier.Supply) (s : Settings) (time : Nat → String)
    (sequence : Nat) : Message where
  id := supply.nth (sequence - 1)
  body := sampleBody time sequence
  lockToken := ⟨""⟩
  contentType := some Producer.jsonContentType
  properties := (sampleOptions s).properties
  enqueuedAt := .ofMillis 0
  deliveryCount := 0

/-- The id of a sample that is sent, and the bus after that. -/
def sentSample (s : Settings) (time : Nat → String) (b : Broker) (sequence : Nat) :
    String × Broker :=
  b.sent 0 s.bus.sendTarget (sampleBody time sequence) (Producer.jsonOptions (sampleOptions s))

/-- The bus after the samples with some numbers were sent. -/
def sentSamples (s : Settings) (time : Nat → String) (b : Broker) (sequence : List Nat) : Broker :=
  sequence.foldl (fun b k => (sentSample s time b k).2) b

theorem sentSamples_append (s : Settings) (time : Nat → String) (b : Broker)
    (sequence rest : List Nat) :
    sentSamples s time b (sequence ++ rest) =
      sentSamples s time (sentSamples s time b sequence) rest :=
  List.foldl_append

/-- The entity that is consumed holds the samples in their order, and no other entity holds
anything. -/
structure Supplied (supply : Identifier.Supply) (s : Settings) (time : Nat → String) (count : Nat)
    (b : Broker) : Prop where
  messages : (b.queue s.bus.consumer.entity).map (·.message) =
    (List.range' 1 count).map (sampleMessage supply s time)
  elsewhere : ∀ e ≠ s.bus.consumer.entity, b.queue e = []

/-- The ids of the samples, in their order. -/
def sampleIds (supply : Identifier.Supply) (count : Nat) : List String :=
  (List.range count).map supply.nth

theorem Supplied.ids (h : Supplied supply s time count b) :
    (b.queue s.bus.consumer.entity).map (·.message.id) = sampleIds supply count := by
  have hmap := congrArg (List.map Message.id) h.messages
  rw [List.map_map, List.map_map] at hmap
  refine hmap.trans ?_
  rw [sampleIds, List.range'_eq_map_range, List.map_map]
  refine List.map_congr_left fun k _ => ?_
  simp [sampleMessage]

/-- What waits is a sample. -/
theorem Supplied.exists_sample (h : Supplied supply s time count b) {e : String} {c : Copy}
    (hc : c ∈ b.queue e) : ∃ k ≤ count, c.message = sampleMessage supply s time k := by
  by_cases he : e = s.bus.consumer.entity
  · subst he
    have hsample : c.message ∈ (List.range' 1 count).map (sampleMessage supply s time) :=
      h.messages ▸ List.mem_map_of_mem hc
    obtain ⟨k, hk, hmessage⟩ := List.mem_map.mp hsample
    have hlt := (List.mem_range'_1.mp hk).2
    exact ⟨k, by omega, hmessage.symm⟩
  · rw [h.elsewhere e he] at hc
    contradiction

/-- So many samples were sent, and nothing else has happened. -/
structure Supplying (supply : Identifier.Supply) (s : Settings) (time : Nat → String) (count : Nat)
    (b : Broker) : Prop where
  supplied : Supplied supply s time count b
  destinations : b.destinations s.bus.sendTarget = [s.bus.consumer.entity]
  supply : b.supply = supply
  issued : b.issued = count
  unused : b.Unused

theorem supplying_connected (supply : Identifier.Supply) (h : s.violations = [])
    (time : Nat → String) : Supplying supply s time 0 (connected supply s) := by
  have hdestinations := destinations_connected supply h
  have hkeeps : (connected supply s).Unused ∧ (connected supply s).supply = supply ∧
      (connected supply s).issued = 0 ∧ ∀ e, (connected supply s).queue e = [] := by
    rw [connected]
    split
    · exact ⟨(Broker.unused_new supply).createSubscription _ _, rfl, rfl,
        (Broker.KeepsCopies.createSubscription _ _ _).queue⟩
    · exact ⟨Broker.unused_new supply, rfl, rfl, fun _ => rfl⟩
  obtain ⟨hunused, hsupply, hissued, hqueue⟩ := hkeeps
  exact ⟨⟨by rw [hqueue]; rfl, fun e _ => hqueue e⟩, hdestinations, hsupply, hissued, hunused⟩

/-- A sample is built as it is described. -/
theorem Supplying.message (h : Supplying supply s time count b) :
    (b.buildMessage 0 (sampleBody time (count + 1)) (Producer.jsonOptions (sampleOptions s))).1 =
      sampleMessage supply s time (count + 1) := by
  rw [Broker.buildMessage_eq rfl, h.supply, h.issued]
  rfl

/-- The next sample joins the others. -/
theorem Supplying.send (h : Supplying supply s time count b) :
    Supplying supply s time (count + 1) (sentSample s time b (count + 1)).2 := by
  have hqueue (e : String) : (sentSample s time b (count + 1)).2.queue e = b.queue e ++
      if e = s.bus.consumer.entity then
        [⟨b.copies, sampleMessage supply s time (count + 1)⟩]
      else [] := by
    refine (Broker.queue_sent b 0 _ _ _ e).trans (congrArg (b.queue e ++ ·) ?_)
    rw [h.message, h.destinations]
    by_cases he : e = s.bus.consumer.entity
    · simp [Broker.copiesFor, Broker.copiesIn, he]
    · simp [Broker.copiesFor, Broker.copiesIn, he, Ne.symm he]
  refine ⟨⟨?_, fun e he => ?_⟩, ?_, ?_, ?_, h.unused.sent rfl 0 _ _⟩
  · rw [hqueue, if_pos rfl, List.map_append, h.supplied.messages, List.range'_concat,
      List.map_append]
    simp [Nat.add_comm]
  · rw [hqueue, if_neg he, h.supplied.elsewhere e he]
    rfl
  · rw [Broker.destinations, sentSample, Broker.subscriptions_sent]
    exact h.destinations
  · rw [sentSample, Broker.supply_sent, h.supply]
  · rw [sentSample, Broker.issued_sent rfl, h.issued]

/-- The samples join each other in the order of their numbers. -/
theorem supplying_sentSamples (supply : Identifier.Supply) (h : s.violations = [])
    (time : Nat → String) (count : Nat) :
    Supplying supply s time count
      (sentSamples s time (connected supply s) (List.range' 1 count)) := by
  induction count with
  | zero => exact supplying_connected supply h time
  | succ count ih =>
    rw [List.range'_concat, sentSamples_append, Nat.one_mul, Nat.add_comm 1 count]
    exact ih.send

/-- The creation of the consumer's receiver leaves the samples alone. -/
theorem Supplied.opened (h : Supplied supply s time count b) (entity : String) :
    Supplied supply s time count (b.opened entity) := by
  have hqueue : ∀ e, (b.opened entity).queue e = b.queue e :=
    (Broker.KeepsCopies.addEntity b entity).queue
  exact ⟨by rw [hqueue, h.messages], fun e he => by rw [hqueue, h.elsewhere e he]⟩

/-! ## Calls -/

/-- The bus in memory that the service connects to comes about by a call. -/
theorem attained_connected (supply : Identifier.Supply) (s : Settings) :
    (connected supply s).Attained [] := by
  rw [connected]
  split
  · exact (Broker.attained_new supply).ask (q := .createSubscription _ _) rfl
      (Broker.takes_createSubscription _ _ 0 _)
  · exact (Broker.attained_new supply)

/-- Samples are sent by calls, one after the other. -/
theorem attained_sentSamples (ht : Broker.checkTarget s.bus.sendTarget = .ok ())
    {receivers : List Broker.Receiver} (h : b.Attained receivers) (sequence : List Nat) :
    (sentSamples s time b sequence).Attained receivers := by
  induction sequence generalizing b with
  | nil => exact h
  | cons k rest ih =>
    have hnext : (sentSample s time b k).2.Attained (receivers ++ []) :=
      h.ask (q := .send s.bus.sendTarget (sampleBody time k)
        (Producer.jsonOptions (sampleOptions s))) rfl (Broker.takes_send ht 0 _ _ _)
    rw [List.append_nil] at hnext
    exact ih hnext

end PeekLock.Service
