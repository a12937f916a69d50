import PeekLock.Proofs.AcceptedSends
import PeekLock.Proofs.Broker.Batches

/-!
# PeekLock.Proofs.Batches

A batch is the same messages on both buses.

The remote bus is handed all of them at once.  They are built in a row,
and what is built after any of them is what `Built` says, so at the end they
are a batch (`Remote.Outgoing.isBatch_of_buildBatch`).  The bus in memory
gets there message by message (`Broker.Traffic.Reachable.atStage`,
`Broker.built_sendAll`).  Both start from the same bodies and options: what
they make agrees in everything but the generated ids (`batches`).
-/

namespace PeekLock

namespace Remote.Outgoing

variable {supply : Identifier.Supply} {bodies rest : List (List UInt8)} {body : List UInt8}
  {options : SendOptions} {start used used' : Nat} {m : Outgoing} {before ms : List Outgoing}

/-- The properties of a message as AMQP has them; without any it has no such section. -/
def carried (p : Properties) : Option Amqp.Properties :=
  if p.isEmpty then none else some (Amqp.ofProperties p)

/-- What a message says. -/
def letter (m : Outgoing) : Letter (Option Amqp.Properties) :=
  ⟨m.id, m.body, m.contentType, m.properties⟩

/-- The options of the next message of a batch. -/
def ownOptions (options : SendOptions) (before : List Outgoing) : SendOptions :=
  { options with messageId := ownId options.messageId before }

/-- Whether a message is the first one is told by its index. -/
theorem ownOptions_eq (options : SendOptions) (before : List Outgoing) :
    ownOptions options before =
      if before.length = 0 then options else { options with messageId := none } := by
  cases before <;> rfl

/-- The id of a message that is built is the one that is given or the next of the supply. -/
theorem messageId_cases {given : Option String} {id : String}
    (h : messageId supply used given = .ok (id, used')) :
    given = some id ∧ used' = used ∨
      given = none ∧ id = supply.nth used ∧ used' = used + 1 := by
  cases given with
  | none =>
    cases h
    exact .inr ⟨rfl, rfl, rfl⟩
  | some id' =>
    rw [messageId] at h
    split at h
    · contradiction
    · cases h
      exact .inl ⟨rfl, rfl⟩

/-- The next message of a batch is built. -/
theorem built_build (hm : build supply used body (ownOptions options before) = .ok (m, used'))
    (h : Built supply bodies options (carried options.properties) start used (before.map letter)
      (body :: rest)) :
    Built supply bodies options (carried options.properties) start used'
      ((before ++ [m]).map letter) rest := by
  have hown : ownId options.messageId (before.map letter) =
      (ownOptions options before).messageId := by
    rw [ownOptions, ownId, List.isEmpty_map]
    rfl
  rw [build] at hm
  split at hm
  · contradiction
  · next id stop hid =>
    cases hm
    rw [List.map_append]
    refine h.next rfl rfl rfl ?_
    rw [hown]
    exact messageId_cases hid

/-- So are all that are left. -/
theorem built_buildFrom (hms : buildFrom supply before.length used rest options = .ok (ms, used'))
    (h : Built supply bodies options (carried options.properties) start used (before.map letter)
      rest) :
    Built supply bodies options (carried options.properties) start used'
      ((before ++ ms).map letter) [] := by
  induction rest generalizing before used ms with
  | nil =>
    cases hms
    rw [List.append_nil]
    exact h
  | cons body rest ih =>
    rw [buildFrom, ← ownOptions_eq] at hms
    split at hms
    · contradiction
    · next m next hm =>
      split at hms
      · contradiction
      · next ms stop hrest =>
        cases hms
        have hlength : before.length + 1 = (before ++ [m]).length := by simp
        rw [hlength] at hrest
        have hall := ih hrest (built_build hm h)
        rwa [List.append_assoc] at hall

/-- **What the remote bus is handed** is a batch. -/
theorem isBatch_of_buildBatch (h : buildBatch supply used bodies options = .ok (ms, used')) :
    IsBatch supply bodies options (carried options.properties) used used' (ms.map letter) := by
  have hms : buildFrom supply ([] : List Outgoing).length used bodies options = .ok (ms, used') := h
  exact (built_buildFrom hms (.nil ..)).isBatch

/-- **A batch is refused** if it has messages and the id for the first of them does not fit. -/
theorem exists_error_buildBatch_iff (supply : Identifier.Supply) (used : Nat)
    (bodies : List (List UInt8)) (options : SendOptions) :
    (∃ e, buildBatch supply used bodies options = .error e) ↔
      bodies ≠ [] ∧ ∃ id, options.messageId = some id ∧ ¬ IdFits id := by
  have hverdict : batchVerdict bodies options = .ok () ↔
      ¬ (bodies ≠ [] ∧ ∃ id, options.messageId = some id ∧ ¬ IdFits id) := by
    cases bodies with
    | nil => exact iff_of_true rfl fun h => h.1 rfl
    | cons body rest =>
      rw [batchVerdict, List.isEmpty_cons, if_neg Bool.false_ne_true, idVerdict_eq_ok_iff]
      push Not
      exact ⟨fun h _ => h, fun h => h (List.cons_ne_nil body rest)⟩
  obtain ⟨ms, used', hms, hok⟩ | ⟨e, he, herror⟩ := buildBatch_cases supply used bodies options
  · refine iff_of_false ?_ (hverdict.mp hok)
    rintro ⟨e, he⟩
    cases hms.symm.trans he
  · refine iff_of_true ⟨e, he⟩ (not_not.mp fun hn => ?_)
    cases herror.symm.trans (hverdict.mpr hn)

/-- Otherwise it is built. -/
theorem exists_buildBatch (supply : Identifier.Supply) (used : Nat) (bodies : List (List UInt8))
    (hfits : ∀ id, options.messageId = some id → IdFits id) :
    ∃ ms used', buildBatch supply used bodies options = .ok (ms, used') := by
  cases h : buildBatch supply used bodies options with
  | ok x => exact ⟨x.1, x.2, rfl⟩
  | error e =>
    obtain ⟨-, id, hid, hn⟩ := (exists_error_buildBatch_iff supply used bodies options).mp ⟨e, h⟩
    exact absurd (hfits id hid) hn

end Remote.Outgoing

/-! ## Both buses -/

open Identifier (counting)
open Remote (Outgoing IdFits)

/-- What the bus in memory and the remote one make of a batch. -/
structure SameBatch (bodies : List (List UInt8)) (options : SendOptions)
    (supply : Identifier.Supply) (start stop : Nat) (supply' : Identifier.Supply)
    (used used' : Nat) (here : List Message) (there : List Outgoing) : Prop where
  inMemory : IsBatch supply bodies options options.properties start stop
    (here.map Message.letter)
  remotely : IsBatch supply' bodies options (Outgoing.carried options.properties) used used'
    (there.map Outgoing.letter)
  /-- One by one they agree, but for how the properties are written. -/
  alike : here.map (fun m => (m.body, m.contentType, Outgoing.carried m.properties)) =
    there.map fun m => (m.body, m.contentType, m.properties)

/-- Two batches of the same bodies and options agree. -/
theorem sameBatch_of_isBatch {supply supply' : Identifier.Supply} {bodies : List (List UInt8)}
    {options : SendOptions} {start stop used used' : Nat} {here : List Message}
    {there : List Outgoing}
    (inMemory : IsBatch supply bodies options options.properties start stop
      (here.map Message.letter))
    (remotely : IsBatch supply' bodies options (Outgoing.carried options.properties) used used'
      (there.map Outgoing.letter)) :
    SameBatch bodies options supply start stop supply' used used' here there := by
  refine ⟨inMemory, remotely, ?_⟩
  calc
    here.map (fun m => (m.body, m.contentType, Outgoing.carried m.properties)) =
        ((here.map Message.letter).map Letter.content).map
          (Prod.map id (Prod.map id Outgoing.carried)) := by
      rw [List.map_map, List.map_map]
      rfl
    _ = (there.map Outgoing.letter).map Letter.content := by
      rw [inMemory.content, remotely.content, List.map_map]
      rfl
    _ = there.map fun m => (m.body, m.contentType, m.properties) := by
      rw [List.map_map]
      rfl

/-- What becomes of a batch on either bus. -/
structure Batched (supply : Identifier.Supply) (used : Nat) (target : String)
    (bodies : List (List UInt8)) (options : SendOptions) : Prop where
  /-- The remote bus refuses it for the id that is given, if anything is sent under it. -/
  refused_iff : (∃ e, Outgoing.buildBatch supply used bodies options = .error e) ↔
    bodies ≠ [] ∧ ∃ id, options.messageId = some id ∧ ¬ IdFits id
  /-- Whether a later message is built under the given id and has it replaced, or is built
  without one, makes no difference. -/
  replaced : ∀ (b : Broker) (now : Nat) (body : List UInt8) (id : String),
    options.messageId = some id → b.buildMessage now body (Broker.SendBatch.later options) =
      ({ (b.buildMessage now body options).1 with id := b.supply.nth b.issued },
        { b with issued := b.issued + 1 })
  /-- If it has the bus in memory to itself, it goes to the end of the queue, and what does is
  what the remote bus is handed. -/
  alone : (∀ id, options.messageId = some id → IdFits id) → ∀ (b : Broker) (now : Nat),
    b.destinations target = [target] → ∃ b' n copies ms used',
      (Broker.Request.sendBatch target bodies options).call.Takes now b b' (.sentBatch (.ok ())) n ∧
      b'.queue target = b.queue target ++ copies ∧
      Outgoing.buildBatch supply used bodies options = .ok (ms, used') ∧
      SameBatch bodies options b.supply b.issued b'.issued supply used used'
        (copies.map (·.message)) ms
  /-- In whatever order calls are made, it is accepted, and the same messages are sent by the time
  it ends. -/
  amid : (∀ id, options.messageId = some id → IdFits id) → ∀ s : Broker.Traffic, s.Reachable →
    s.Answered (.sendBatch target bodies options) (.ok ()) ∧
    ∀ t, (s.accept (.sendBatch target bodies options)).Leads t →
      (∀ u, (s.accept (.sendBatch target bodies options)).Leads u → u.Leads t →
        u.broker.destinations target = [target]) →
      t.sendAnswer? s.calls.length = some (.ok ()) → ∃ ms used',
        Outgoing.buildBatch supply used bodies options = .ok (ms, used') ∧
        SameBatch bodies options t.broker.supply s.broker.issued t.broker.issued supply used used'
          (t.sentBy s.calls.length) ms

/-- **A batch is the same messages on both buses**, but for the ids that are generated. -/
theorem batches {target name : String} (h : EntityPath.parse target = .ok (.queue name))
    (supply : Identifier.Supply) (used : Nat) (bodies : List (List UInt8))
    (options : SendOptions) : Batched supply used target bodies options := by
  have htarget : Broker.checkTarget target = .ok () := by rw [Broker.checkTarget, h]
  refine ⟨Outgoing.exists_error_buildBatch_iff ..,
    fun b now body _ hid => Broker.buildMessage_later hid b now body,
    fun hfits b now hd => ?_, fun hfits s hs => ⟨?_, fun t ht hd ha => ?_⟩⟩
  · obtain ⟨ms, used', hms⟩ := Outgoing.exists_buildBatch supply used bodies hfits
    obtain ⟨copies, hcopies, hqueue⟩ := Broker.queue_sendAll hd now options bodies
    refine ⟨_, _, copies, ms, used', Broker.takes_sendBatch htarget now b bodies options, hqueue,
      hms, sameBatch_of_isBatch ?_ (Outgoing.isBatch_of_buildBatch hms)⟩
    have hnone : Built b.supply bodies options options.properties b.issued b.issued
        (([] : List Message).map Message.letter) bodies := .nil ..
    rw [hcopies]
    exact (Broker.built_sendAll now target hnone).isBatch
  · rw [← htarget]
    exact s.answered_of_sendVerdict rfl
  · obtain ⟨ms, used', hms⟩ := Outgoing.exists_buildBatch supply used bodies hfits
    refine ⟨ms, used', hms, sameBatch_of_isBatch ?_ (Outgoing.isBatch_of_buildBatch hms)⟩
    obtain ⟨began, p, hi, hstage⟩ := hs.atStage htarget ht hd
    rw [Broker.Traffic.sendAnswer?, hi] at ha
    cases hstage with
    | done hbuilt => exact hbuilt.isBatch
    | _ => contradiction

/-- Options with an id for the first message. -/
def namedFirst : SendOptions :=
  { messageId := some "first", contentType := some "text/plain",
    properties := [("priority", .nat 1)] }

theorem batches_namedFirst : EntityPath.parse "orders" = .ok (.queue "orders") ∧
    Batched counting 0 "orders" [[1], [2], [3]] namedFirst ∧ ∃ b' n copies ms used',
      (Broker.Request.sendBatch "orders" [[1], [2], [3]] namedFirst).call.Takes 0 {} b'
        (.sentBatch (.ok ())) n ∧
      b'.queue "orders" = copies ∧ (copies.map (·.message.id)).Nodup ∧
      Outgoing.buildBatch counting 0 [[1], [2], [3]] namedFirst = .ok (ms, used') ∧
      (ms.map (·.id)).Nodup ∧
      ms.map (·.properties) = List.replicate 3 (some ⟨[("priority", .long 1)]⟩) := by
  have htarget : EntityPath.parse "orders" = .ok (.queue "orders") := by decide
  have hfits : ∀ id, namedFirst.messageId = some id → IdFits id := by
    rintro id ⟨⟩
    decide
  have hnew : ∀ id, namedFirst.messageId = some id → ∀ n, counting.nth n ≠ id := by
    rintro id ⟨⟩ n hn
    have hhead := congrArg (·.toList.head?) hn
    simp [counting, Identifier.stem] at hhead
  have hbatch := batches htarget counting 0 [[1], [2], [3]] namedFirst
  obtain ⟨b', n, copies, ms, used', htakes, hqueue, hms, hsame⟩ := hbatch.alone hfits {} 0 rfl
  have hhere := hsame.inMemory.distinct hnew
  have hthere := hsame.remotely.distinct hnew
  rw [List.map_map, List.map_map] at hhere
  rw [List.map_map] at hthere
  have hproperties : ms.map (·.properties) =
      List.replicate 3 (Outgoing.carried namedFirst.properties) := by
    have hcontent := congrArg (List.map (·.2.2)) hsame.remotely.content
    rwa [List.map_map, List.map_map] at hcontent
  exact ⟨htarget, hbatch, b', n, copies, ms, used', htakes, hqueue, hhere, hms, hthere,
    hproperties⟩

end PeekLock
