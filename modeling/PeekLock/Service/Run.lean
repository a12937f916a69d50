import PeekLock.Session.Run
import PeekLock.Settings.Load

/-!
# PeekLock.Service.Run

The run of the service: it connects, sends sample messages if it is asked
to, and consumes with a handler that logs and counts.

The run is made of the commands of a session, without the pauses between
them; its own records come in between.
-/

namespace PeekLock.Service

/-- Why a run ended, with what led to it: the last message is the first cause. -/
structure Failure where
  causes : List String
  deriving DecidableEq, Repr, Inhabited

/-- The failure of a call that is not put into context. -/
def Failure.ofError (e : BusError) : Failure := ⟨[e.message]⟩

/-- The failure of a call, in the context of what it was for. -/
def Failure.within (context : String) (e : BusError) : Failure := ⟨[context, e.message]⟩

/-- A run on its way. -/
abbrev State := Session.State

/-- A step of the run, which may fail; what was logged stays. -/
abbrev Act (α : Type) := ExceptT Failure (StateM State) α

/-- The name of the token that ends the service. -/
def shutdownToken : String := "shutdown"

/-- The name of the producer of the samples. -/
def producerName : String := "samples"

/-- The name of the consumer. -/
def consumerName : String := "service"

/-- Writes a record of the service. -/
def note (level : Level) (text : String) : Act Unit :=
  modify fun s => { s with shared := s.shared.write [⟨level, .part "demo_service", text⟩] }

/-- Carries out a command. -/
def ask (c : Session.Command) : Act (Option Session.Answer) := do
  let s ← get
  let fresh := { s with shared := { s.shared with answer := none } }
  let answered := fresh.perform Session.behaviour (·.answer.isSome) (.command c)
  set answered
  return answered.shared.answer

/-- The error in an answer. -/
def errorOf : Option Session.Answer → Option BusError
  | some (.failed e) => some e
  | some (.ended (.error e) _) => some e
  | _ => none

/-- Carries out a command that has to succeed. -/
def insist (failure : BusError → Failure) (c : Session.Command) : Act (Option Session.Answer) := do
  let answer ← ask c
  match errorOf answer with
  | some e => throw (failure e)
  | none => return answer

/-- Connects to the bus. -/
def connect (s : Settings) (inMemory : Bool) : Act Unit := do
  if inMemory then
    if let (some topic, some name) := (s.bus.topic, s.bus.subscription) then
      let _ ← ask (.createSubscription topic name)
    note .info "Using in-memory broker"
  else
    match s.bus.connectionString with
    | none => throw ⟨["servicebus.connection_string is required unless --in-memory is set"]⟩
    | some address =>
      note .info "Connecting to Service Bus..."
      let _ ← insist (.within "Failed to connect to Service Bus")
        (.connectWithRetry address s.retry.policy shutdownToken)

/-- The data of a sample message. -/
def sample (time : String) (sequence : Nat) : Json :=
  .ofMembers [
    ("sequence", .nat sequence),
    ("timestamp", .string time),
    ("content", .string s!"Sample message #{sequence}")]

/-- The options that samples are sent with. -/
def sampleOptions (s : Settings) : SendOptions :=
  { properties := .ofList [("source", .string s.app.name)] }

/-- Notes that a sample was sent, with its id. -/
def noteSent : Option Session.Answer → Act Unit
  | some (.id id) => note .debug s!"Sent sample message {id}"
  | _ => return

/-- Sends the samples with some numbers, each with the time that it is given. -/
def sendSamples (s : Settings) (time : Nat → String) : List Nat → Act Unit
  | [] => return
  | sequence :: rest => do
    let answer ← insist .ofError
      (.produceJson producerName (.json (sample (time sequence) sequence)) (sampleOptions s))
    noteSent answer
    sendSamples s time rest

/-- Sends so many sample messages. -/
def produce (s : Settings) (time : Nat → String) (count : Nat) : Act Unit := do
  let target := s.bus.sendTarget
  let _ ← insist .ofError (.createProducer producerName target)
  sendSamples s time (List.range' 1 count)
  modify fun st =>
    { st with shared := { st.shared with stats := st.shared.stats.recordSent (.ofNat count) } }
  note .info s!"Sent {count} sample messages to {target}"

/-- Creates the consumer. -/
def createConsumer (s : Settings) : Act Unit := do
  let _ ← insist (.within "Failed to create consumer")
    (.createConsumer consumerName s.bus.consumer .service .client)

/-- Starts the consumer. -/
def startConsumer : Act Unit := do
  let _ ← insist .ofError (.start consumerName shutdownToken)

/-- Gets everything ready: the bus, the samples and the consumer. -/
def prepare (s : Settings) (inMemory : Bool) (time : Nat → String) (count : Nat) : Act Unit := do
  connect s inMemory
  produce s time count
  createConsumer s

/-- The beginning of a run, whose identifiers come from some supply. -/
def atStart (inMemory : Bool) (supply : Identifier.Supply) : State :=
  .initial (if inMemory then .memory else .remote) supply

/-! ## A trial run -/

/-- What a trial run logged and counted. -/
structure Trial where
  /-- What was logged before the consumer was started. -/
  produced : List LogRecord
  /-- What was logged while it was running. -/
  running : List LogRecord
  /-- What was logged while it was stopped. -/
  stopping : List LogRecord
  stop : Except BusError Unit
  stats : Stats

/-- Takes what was logged so far. -/
def takeLogs : Act (List LogRecord) := do
  let s ← get
  set { s with shared := { s.shared with logs := [] } }
  return s.shared.logs

/-- A run that consumes for so many milliseconds and then stops. -/
def trial (s : Settings) (inMemory : Bool) (time : String) (count runMs : Nat) : Act Trial := do
  prepare s inMemory (fun _ => time) count
  let produced ← takeLogs
  startConsumer
  let _ ← ask (.sleep runMs)
  let running ← takeLogs
  let answer ← ask (.stop consumerName none)
  let stopping ← takeLogs
  let stop : Except BusError Unit := match errorOf answer with
    | some e => .error e
    | none => .ok ()
  return ⟨produced, running, stopping, stop, (← get).shared.stats⟩

/-- The outcome of a trial run; a failure comes with what was logged before it. -/
def trialOutcome (s : Settings) (inMemory : Bool) (time : String) (count runMs : Nat) :
    Except (Failure × List LogRecord) Trial :=
  let (result, state) :=
    (trial s inMemory time count runMs).run.run (atStart inMemory Identifier.counting)
  match result with
  | .ok t => .ok t
  | .error failure => .error (failure, state.shared.logs)

end PeekLock.Service
