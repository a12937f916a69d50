import PeekLock.Proofs.Broker.Sends
import PeekLock.Proofs.Broker.SingleUse
import PeekLock.Proofs.Broker.Solitude
import PeekLock.Proofs.Letters

/-!
# PeekLock.Proofs.Broker.Batches

What a batch sends to a queue of the in-memory bus.

`Stage` tells at each point of the send what has arrived and what is about
to; a step of the send takes it from one stage to the next, and no other
call does anything to it.  So when the send is over, the messages that it
has made are a batch, whatever was sent, received and settled in between.
A send that has the bus to itself puts them at the end of the queue, one
behind the other (`sendAll`).
-/

namespace PeekLock

/-- What a message says. -/
def Message.letter (m : Message) : Letter Properties := ⟨m.id, m.body, m.contentType, m.properties⟩

namespace Broker

variable {supply : Identifier.Supply} {target : String} {bodies rest : List (List UInt8)}
  {body : List UInt8} {options : SendOptions} {start now issued issued' : Nat} {b : Broker}
  {before sent : List Message} {p : Progress Call Outcome} {c : Call}

/-! ## Building -/

/-- The options of the next message of a batch. -/
def ownOptions (options : SendOptions) (before : List Message) : SendOptions :=
  { options with messageId := ownId options.messageId before }

theorem ownOptions_of_ne_nil (options : SendOptions) {before : List Message} (h : before ≠ []) :
    ownOptions options before = SendBatch.later options := by
  rw [ownOptions, ownId, if_neg (by simpa using h), SendBatch.later]

/-- A message that is sent under an id. -/
theorem buildMessage_of_given {options : SendOptions} {id : String}
    (h : options.messageId = some id) (b : Broker) (now : Nat) (body : List UInt8) :
    b.buildMessage now body options =
      (⟨id, body, ⟨""⟩, options.contentType, options.properties, .ofMillis now, 0⟩, b) := by
  simp only [buildMessage, h]

/-- It makes no difference whether a message is built without an id or has the one that is given
replaced by a generated one. -/
theorem buildMessage_later {options : SendOptions} {id : String}
    (h : options.messageId = some id) (b : Broker) (now : Nat) (body : List UInt8) :
    b.buildMessage now body (SendBatch.later options) =
      ({ (b.buildMessage now body options).1 with id := b.supply.nth b.issued },
        { b with issued := b.issued + 1 }) := by
  rw [buildMessage_eq rfl, buildMessage_of_given h]
  rfl

/-- The next message of a batch is built. -/
theorem built_buildMessage (now : Nat)
    (h : Built b.supply bodies options options.properties start b.issued
      (before.map Message.letter) (body :: rest)) :
    Built b.supply bodies options options.properties start
      (b.buildMessage now body (ownOptions options before)).2.issued
      ((before ++ [(b.buildMessage now body (ownOptions options before)).1]).map Message.letter)
      rest := by
  have hown : ownId options.messageId (before.map Message.letter) =
      (ownOptions options before).messageId := by
    rw [ownOptions, ownId, List.isEmpty_map]
    rfl
  rw [List.map_append]
  cases hid : (ownOptions options before).messageId with
  | none =>
    rw [buildMessage_eq hid]
    exact h.next rfl rfl rfl (.inr ⟨hown.trans hid, rfl, rfl⟩)
  | some id =>
    rw [buildMessage_of_given hid]
    exact h.next rfl rfl rfl (.inl ⟨hown.trans hid, rfl⟩)

/-! ## Any order of calls -/

/-- How far the send of a batch has come: what it has sent, and what it is about to. -/
inductive Stage (supply : Identifier.Supply) (target : String) (bodies : List (List UInt8))
    (options : SendOptions) (start issued : Nat) (sent : List Message) :
    Progress Call Outcome → Prop where
  | checking (hs : sent = [])
    (h : Built supply bodies options options.properties start issued
      (sent.map Message.letter) bodies) :
    Stage supply target bodies options start issued sent
      (.on (.sendingBatch (.checking target bodies options)))
  /-- About to send one more message. -/
  | enqueueing (count : Nat) (m : Message) (rest : List (List UInt8))
    (h : Built supply bodies options options.properties start issued
      ((sent ++ [m]).map Message.letter) rest) :
    Stage supply target bodies options start issued sent
      (.on (.sendingBatch (.enqueueing target count m rest (SendBatch.later options))))
  | announcing (count : Nat) (rest : List (List UInt8)) (hs : sent ≠ [])
    (h : Built supply bodies options options.properties start issued
      (sent.map Message.letter) rest) :
    Stage supply target bodies options start issued sent
      (.on (.sendingBatch (.announcing target count rest (SendBatch.later options))))
  | done (h : Built supply bodies options options.properties start issued
      (sent.map Message.letter) []) :
    Stage supply target bodies options start issued sent (.done (.sentBatch (.ok ())))

/-- Other calls may draw identifiers. -/
theorem Stage.mono (h : Stage supply target bodies options start issued sent p)
    (hle : issued ≤ issued') : Stage supply target bodies options start issued' sent p := by
  cases h with
  | checking hs h => exact .checking hs (h.mono hle)
  | enqueueing count m rest h => exact .enqueueing count m rest (h.mono hle)
  | announcing count rest hs h => exact .announcing count rest hs (h.mono hle)
  | done h => exact .done (h.mono hle)

/-- Going on with the bodies that are left. -/
theorem stage_goOn (now : Nat) (target : String) (count : Nat)
    (h : Built b.supply bodies options options.properties start b.issued
      (sent.map Message.letter) rest) :
    Stage b.supply target bodies options start
      (SendBatch.goOn now b target count (ownOptions options sent) rest).state.issued sent
      ((SendBatch.goOn now b target count (ownOptions options sent) rest).progress.map
        .sendingBatch .sentBatch) := by
  cases rest with
  | nil => exact .done h
  | cons body rest => exact .enqueueing count _ rest (built_buildMessage now h)

/-- The messages that a step makes for a queue without subscriptions. -/
theorem arrivals_of_destinations (h : b.destinations target = [target]) (m : Message) :
    ((Transfer.arrival target m).arrivals b).map (·.2.message) = [m] := by
  rw [Transfer.arrivals, h]
  rfl

/-- A step of the send leads to the next stage. -/
theorem Stage.step (h : Stage b.supply target bodies options start b.issued sent (.on c))
    (ht : checkTarget target = .ok ()) (hd : b.destinations target = [target]) (now : Nat) :
    Stage b.supply target bodies options start (c.step now b).state.issued
      (sent ++ ((c.transfer b).arrivals b).map (·.2.message)) (c.step now b).progress := by
  cases h with
  | checking hs h =>
    subst hs
    have hgo := stage_goOn now target bodies.length h
    simp only [Call.step, SendBatch.step, ht]
    exact hgo
  | enqueueing count m rest h =>
    have hissued : (b.enqueue target m).issued = b.issued := by rw [enqueue_frame]
    show Stage b.supply target bodies options start (b.enqueue target m).issued
      (sent ++ ((Transfer.arrival target m).arrivals b).map (·.2.message)) _
    rw [arrivals_of_destinations hd, hissued]
    exact .announcing count rest (by simp) h
  | announcing count rest hs h =>
    have hgo := stage_goOn (b := b.broadcast) now target count h
    rw [ownOptions_of_ne_nil options hs] at hgo
    show Stage b.supply target bodies options start _ (sent ++ []) _
    rw [List.append_nil]
    exact hgo

namespace Traffic

/-- The messages that a call has sent, in that order. -/
def sentBy (t : Traffic) (i : Nat) : List Message :=
  (t.arrivals.filter (·.call = i)).map (·.copy.message)

theorem sentBy_advance (t : Traffic) (j began : Nat) (c : Call) :
    (t.advance j began c).sentBy j =
      t.sentBy j ++ ((c.transfer t.broker).arrivals t.broker).map (·.2.message) := by
  rw [sentBy, advance, List.filter_append, List.map_append, ← sentBy,
    List.filter_eq_self.mpr, List.map_map]
  · rfl
  · intro a ha
    obtain ⟨x, -, rfl⟩ := List.mem_map.mp ha
    exact decide_eq_true rfl

theorem sentBy_advance_ne {i j : Nat} (hij : j ≠ i) (t : Traffic) (began : Nat) (c : Call) :
    (t.advance j began c).sentBy i = t.sentBy i := by
  rw [sentBy, advance, List.filter_append, List.map_append, ← sentBy,
    List.filter_eq_nil_iff.mpr, List.map_nil, List.append_nil]
  intro a ha
  obtain ⟨x, -, rfl⟩ := List.mem_map.mp ha
  exact fun h => hij (of_decide_eq_true h)

/-- Only calls that were begun have made copies. -/
theorem Reachable.call_lt {t : Traffic} (h : t.Reachable) :
    ∀ a ∈ t.arrivals, a.call < t.calls.length := by
  obtain ⟨supply, h⟩ := h
  refine h.invariant (P := fun t => ∀ a ∈ t.arrivals, a.call < t.calls.length)
    ?_ ?_ ?_ ?_ ?_ ?_
  · exact fun a ha => absurd ha List.not_mem_nil
  · intro t q _ ih a ha
    rw [accept, List.length_append]
    exact Nat.lt_add_right 1 (ih a ha)
  · intro t i began c hi _ ih a ha
    rw [advance, List.length_set]
    obtain ha | ha := List.mem_append.mp ha
    · exact ih a ha
    · obtain ⟨x, -, rfl⟩ := List.mem_map.mp ha
      exact (List.getElem?_eq_some_iff.mp hi).1
  · intro t i began c _ ih a ha
    rw [dropReceive, List.length_set]
    exact ih a ha
  · exact fun t ms ih => ih
  · exact fun t locks _ ih => ih

/-- Before a call is begun it has sent nothing. -/
theorem Reachable.sentBy_accept {s : Traffic} (h : s.Reachable) (q : Request) :
    (s.accept q).sentBy s.calls.length = [] := by
  rw [sentBy, accept, List.filter_eq_nil_iff.mpr, List.map_nil]
  exact fun a ha he => Nat.ne_of_lt (h.call_lt a ha) (of_decide_eq_true he)

/-- The stage of a batch that a call of some traffic sends. -/
def AtStage (target : String) (bodies : List (List UInt8)) (options : SendOptions) (start i : Nat)
    (t : Traffic) : Prop :=
  ∃ began p, t.calls[i]? = some ⟨began, p⟩ ∧
    Stage t.broker.supply target bodies options start t.broker.issued (t.sentBy i) p

/-- Nothing that other calls do matters to a batch. -/
theorem AtStage.of_eq {s t : Traffic} {i : Nat} (h : s.AtStage target bodies options start i)
    (calls : ∀ x, s.calls[i]? = some x → t.calls[i]? = some x)
    (supply : t.broker.supply = s.broker.supply) (issued : s.broker.issued ≤ t.broker.issued)
    (sent : t.sentBy i = s.sentBy i) : t.AtStage target bodies options start i := by
  obtain ⟨began, p, hi, hp⟩ := h
  rw [AtStage, supply]
  exact ⟨began, p, calls _ hi, sent ▸ hp.mono issued⟩

theorem AtStage.step {s t : Traffic} {i : Nat} {m : Move}
    (h : s.AtStage target bodies options start i) (ht : checkTarget target = .ok ())
    (hd : s.broker.destinations target = [target]) (hm : s.after m = some t) :
    t.AtStage target bodies options start i := by
  obtain ⟨q, -, -, rfl⟩ | ⟨j, began, c, -, hj, -, rfl⟩ | ⟨j, began, c, -, hj, rfl⟩ |
    ⟨ms, -, rfl⟩ | ⟨locks, -, -, rfl⟩ := after_cases hm
  · refine h.of_eq (fun x hx => ?_) rfl (Nat.le_refl _) rfl
    obtain ⟨hlt, -⟩ := List.getElem?_eq_some_iff.mp hx
    rw [accept, List.getElem?_append_left hlt, hx]
  · by_cases hji : j = i
    · subst hji
      obtain ⟨began', p, hi, hp⟩ := h
      rw [hj] at hi
      cases hi
      refine ⟨began, _, getElem?_advance hj, ?_⟩
      rw [sentBy_advance, supply_advance]
      exact hp.step ht hd s.now
    · exact h.of_eq (fun x hx => (getElem?_advance_ne hji).trans hx)
        (supply_advance s j began c) (issued_le_advance s j began c)
        (sentBy_advance_ne hji s began c)
  · have hk := c.drop_keepsCopies s.broker
    refine h.of_eq (fun x hx => ?_) hk.supply hk.issued rfl
    by_cases hji : j = i
    · subst hji
      obtain ⟨began', p, hi, hp⟩ := h
      rw [hj] at hi
      cases hi
      cases hp
    · rw [dropReceive, List.getElem?_set_ne hji, hx]
  · exact h.of_eq (fun _ hx => hx) rfl (Nat.le_refl _) rfl
  · exact h.of_eq (fun _ hx => hx) rfl (Nat.le_refl _) rfl

/-- While its queue has no subscriptions, a batch goes through its stages, whatever else is
asked of the bus. -/
theorem Reachable.atStage {s t : Traffic} (hs : s.Reachable) (ht : checkTarget target = .ok ())
    (hl : (s.accept (.sendBatch target bodies options)).Leads t)
    (hd : ∀ u, (s.accept (.sendBatch target bodies options)).Leads u → u.Leads t →
      u.broker.destinations target = [target]) :
    t.AtStage target bodies options s.broker.issued s.calls.length := by
  generalize hq : s.accept (.sendBatch target bodies options) = r at hl hd
  induction hl with
  | refl =>
    subst hq
    refine ⟨s.now, _, List.getElem?_concat_length, ?_⟩
    rw [hs.sentBy_accept]
    exact .checking rfl (.nil ..)
  | @step t u m hrt hm ih =>
    have hstage := ih fun w hw hwt => hd w hw (hwt.step hm)
    exact hstage.step ht (hd t hrt ((Leads.refl t).step hm)) hm

end Traffic

/-! ## A batch that has the bus to itself -/

/-- The messages of the bodies that are left, and the bus after they are sent. -/
def sendAll (now : Nat) (target : String) :
    SendOptions → List (List UInt8) → Broker → List Message × Broker
  | _, [], b => ([], b)
  | options, body :: rest, b =>
    let (ms, b') :=
      sendAll now target (SendBatch.later options) rest (b.sent now target body options).2
    ((b.buildMessage now body options).1 :: ms, b')

theorem takes_announcing (now : Nat) (target : String) (count : Nat) (options : SendOptions)
    (rest : List (List UInt8)) (b : Broker) :
    (Call.sendingBatch (.announcing target count rest options)).Takes now b
      (sendAll now target options rest b.broadcast).2 (.sentBatch (.ok ()))
      (2 * rest.length + 1) := by
  induction rest generalizing options b with
  | nil => exact .last rfl rfl
  | cons body rest ih => exact .step rfl rfl (.step rfl rfl (ih _ _))

theorem takes_sendBatch (h : checkTarget target = .ok ()) (now : Nat) (b : Broker)
    (bodies : List (List UInt8)) (options : SendOptions) :
    (Request.sendBatch target bodies options).call.Takes now b
      (sendAll now target options bodies b).2 (.sentBatch (.ok ())) (2 * bodies.length + 1) := by
  have hstep : (Request.sendBatch target bodies options).call.step now b =
      (SendBatch.goOn now b target bodies.length options bodies).map .sendingBatch .sentBatch := by
    simp only [Request.call, Call.step, SendBatch.step, h]
  cases bodies with
  | nil =>
    have hlast : (Request.sendBatch target [] options).call.Takes now b
        ((Request.sendBatch target [] options).call.step now b).state (.sentBatch (.ok ())) 1 :=
      .last rfl (by rw [hstep]; rfl)
    rwa [hstep] at hlast
  | cons body rest => exact .of_step hstep rfl rfl (.step rfl rfl (takes_announcing ..))

/-- A message that is sent goes to the end of its queue, if that has no subscriptions. -/
theorem queue_sent_of_destinations (h : b.destinations target = [target]) (now : Nat)
    (body : List UInt8) (options : SendOptions) :
    (b.sent now target body options).2.queue target =
      b.queue target ++ [⟨b.copies, (b.buildMessage now body options).1⟩] := by
  rw [queue_sent, h]
  simp [copiesIn, copiesFor]

/-- Sending leaves subscriptions alone. -/
theorem destinations_sent (b : Broker) (now : Nat) (body : List UInt8) (options : SendOptions) :
    (b.sent now target body options).2.destinations target = b.destinations target := by
  rw [destinations, subscriptions_sent, destinations]

theorem issued_sent_eq (b : Broker) (now : Nat) (target : String) (body : List UInt8)
    (options : SendOptions) :
    (b.sent now target body options).2.issued = (b.buildMessage now body options).2.issued := by
  obtain ⟨queues, copies, broadcasts, heq⟩ := sent_frame b now target body options
  rw [heq]

/-- The messages of a batch that has the bus to itself lie at the end of the queue, one behind
the other. -/
theorem queue_sendAll (h : b.destinations target = [target]) (now : Nat) (options : SendOptions)
    (rest : List (List UInt8)) :
    ∃ copies : List Copy, copies.map (·.message) = (sendAll now target options rest b).1 ∧
      (sendAll now target options rest b).2.queue target = b.queue target ++ copies := by
  induction rest generalizing options b with
  | nil => exact ⟨[], rfl, (List.append_nil _).symm⟩
  | cons body rest ih =>
    obtain ⟨copies, hcopies, hqueue⟩ := ih ((destinations_sent b now body options).trans h)
      (SendBatch.later options)
    refine ⟨⟨b.copies, (b.buildMessage now body options).1⟩ :: copies, ?_, ?_⟩
    · rw [List.map_cons, hcopies]
      rfl
    · rw [queue_sent_of_destinations h, List.append_assoc] at hqueue
      exact hqueue

/-- They are what a batch is. -/
theorem built_sendAll (now : Nat) (target : String)
    (h : Built b.supply bodies options options.properties start b.issued
      (before.map Message.letter) rest) :
    Built b.supply bodies options options.properties start
      (sendAll now target (ownOptions options before) rest b).2.issued
      ((before ++ (sendAll now target (ownOptions options before) rest b).1).map Message.letter)
      [] := by
  induction rest generalizing before b with
  | nil =>
    rw [sendAll, List.append_nil]
    exact h
  | cons body rest ih =>
    have hbuilt := built_buildMessage now h
    rw [← issued_sent_eq b now target, ← supply_sent b now target] at hbuilt
    have hrest := ih hbuilt
    rw [supply_sent, ownOptions_of_ne_nil options (by simp), List.append_assoc] at hrest
    exact hrest

end Broker

end PeekLock
