import PeekLock.Service.Handler
import PeekLock.Session.Command

/-!
# PeekLock.Session.World

What the tasks of a session share, and what the session answers.
-/

namespace PeekLock.Session

/-- The answer to a command. -/
inductive Answer where
  | ok
  /-- The id of a message. -/
  | id (text : String)
  | failed (e : BusError)
  /-- Messages with their numbers, after so many milliseconds. -/
  | messages (ms : List (Nat × Message)) (elapsed : Nat)
  /-- A receive failed after so many milliseconds. -/
  | receiveFailed (e : BusError) (elapsed : Nat)
  /-- A stop or a connection attempt ended after so many milliseconds. -/
  | ended (result : Except BusError Unit) (elapsed : Nat)
  | settings (s : ConsumerSettings)
  | producer (p : Producer)
  /-- The call in the background goes on. -/
  | pending
  /-- Something was named that is not there. -/
  | unknown

/-- The result of a call that may be in the background. -/
inductive Outcome where
  | received (result : Except BusError (List Message)) (elapsed : Nat) (sorted : Bool)
  | ended (result : Except BusError Unit) (elapsed : Nat)

/-- A call in the background. -/
structure Job where
  outcome : Option Outcome := none
  /-- Whether the call is to be dropped. -/
  aborted : Bool := false

instance : Inhabited Job := ⟨{}⟩

/-- A call of a handler that was noted. -/
structure Handled where
  context : MessageContext
  /-- When it was, in milliseconds. -/
  time : Nat
  /-- Whether the worker's scope was cancelled then. -/
  cancelled : Bool
  deriving DecidableEq, Inhabited

/-- A consumer with its handler. -/
structure Member where
  consumer : Consumer
  handler : Handler
  deriving Inhabited

/-- What the tasks of a session share. -/
structure World where
  /-- The bus that the session's client talks to. -/
  medium : Medium := .memory
  bus : Bus := {}
  /-- The names of the tokens that are cancelled. -/
  cancelled : List String := []
  receivers : Table String Nat := .empty
  producers : Table String Producer := .empty
  consumers : Table String Nat := .empty
  /-- Every consumer that was ever created. -/
  members : List Member := []
  jobNames : Table String Nat := .empty
  jobs : List Job := []
  /-- The tokens of the messages received by commands, by number. -/
  tokens : List LockToken := []
  /-- The counters of the service. -/
  stats : Service.Stats := {}
  answer : Option Answer := none
  logs : List LogRecord := []
  handled : List Handled := []

instance : Inhabited World := ⟨{}⟩

namespace World

/-- Writes records. -/
def write (w : World) (records : List LogRecord) : World :=
  if records.isEmpty then w else { w with logs := w.logs ++ records }

/-- Answers the command. -/
def reply (w : World) (a : Answer) : World := { w with answer := some a }

/-- The consumer of that number, with its handler. -/
def member (w : World) (n : Nat) : Member := w.members.getD n default

/-- Changes a consumer. -/
def setConsumer (w : World) (n : Nat) (c : Consumer) : World :=
  { w with members := w.members.set n { w.member n with consumer := c } }

/-- Whether a named token is cancelled. -/
def isCancelled (w : World) (token : String) : Bool := w.cancelled.contains token

/-- Whether the caller's token of a crew is cancelled. -/
def callerCancelled (w : World) (consumer crew : Nat) : Bool :=
  w.isCancelled ((w.member consumer).consumer.crew crew).caller

/-- Whether the scope of a crew is cancelled. -/
def scopeCancelled (w : World) (consumer crew : Nat) : Bool :=
  ((w.member consumer).consumer.crew crew).pool.stopped || w.callerCancelled consumer crew

/-- The consumer of a name goes. -/
def dropConsumer (w : World) (name : String) : World :=
  match w.consumers.get? name with
  | none => w
  | some n =>
    { w.setConsumer n (w.member n).consumer.drop with consumers := w.consumers.remove name }

/-- Adds a consumer under a name; one that had the name before goes. -/
def addConsumer (w : World) (name : String) (m : Member) : World :=
  let w := w.dropConsumer name
  { w with
    consumers := w.consumers.put name w.members.length
    members := w.members ++ [m] }

/-- Adds a receiver; its number comes with it. -/
def addReceiver (w : World) (r : Receiver) : Nat × World :=
  let (n, bus) := w.bus.addReceiver r
  (n, { w with bus := bus })

/-- Adds a call in the background; its number comes with it. -/
def addJob (w : World) (name : String) : Nat × World :=
  (w.jobs.length,
    { w with jobNames := w.jobNames.put name w.jobs.length, jobs := w.jobs ++ [{}] })

/-- The call of that number in the background. -/
def job (w : World) (n : Nat) : Job := w.jobs.getD n default

/-- Whether a call in the background is to be dropped. -/
def isAborted (w : World) (dest : Option Nat) : Bool := dest.any fun n => (w.job n).aborted

/-- The lock token that is meant. -/
def tokenOf (w : World) : TokenChoice → LockToken
  | .text t => ⟨t⟩
  | .number n => w.tokens.getD (n % w.tokens.length) ⟨"none"⟩

/-- Numbers messages that a command received. -/
def numbered (w : World) (ms : List Message) : List (Nat × Message) :=
  (List.range' w.tokens.length ms.length).zip ms

/-- Answers with the result of a call. -/
def replyWith (w : World) : Outcome → World
  | .received (.ok ms) elapsed sorted =>
    let ms := if sorted then ms.mergeSort fun a b => a.id ≤ b.id else ms
    { w with tokens := w.tokens ++ (ms.map Message.lockToken) }.reply
      (.messages (w.numbered ms) elapsed)
  | .received (.error e) elapsed _ => w.reply (.receiveFailed e elapsed)
  | .ended result elapsed => w.reply (.ended result elapsed)

/-- Hands the result of a call to where it is wanted: to the command itself, or
to the call's place in the background. -/
def finish (w : World) (dest : Option Nat) (o : Outcome) : World :=
  match dest with
  | none => w.replyWith o
  | some n => { w with jobs := w.jobs.set n { w.job n with outcome := some o } }

/-- The answer to a call without a value. -/
def replyDone (w : World) : Except BusError Unit → World
  | .ok () => w.reply .ok
  | .error e => w.reply (.failed e)

/-- The answer to a send. -/
def replySent (w : World) : Except BusError (Option String) → World
  | .ok (some id) => w.reply (.id id)
  | .ok none => w.reply .ok
  | .error e => w.reply (.failed e)

end World

end PeekLock.Session
