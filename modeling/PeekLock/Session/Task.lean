import PeekLock.Schedule
import PeekLock.Session.Duty

/-!
# PeekLock.Session.Task

The tasks of a session, and what one step of each of them does.

A command is a task like any other.  It is over when its answer is there;
calls that were put into the background, and the workers of consumers, go
on beside the commands that follow.
-/

namespace PeekLock.Session

/-- What a new receiver is for. -/
inductive Purpose where
  /-- To be used by commands, under a name and with a script. -/
  | receiver (name : String) (script : List (Option BusError)) (closeError : Option BusError)
  /-- To be consumed from. -/
  | consumer (name : String) (settings : ConsumerSettings) (handler : Handler)

/-- A receive for a command. -/
structure Fetching where
  call : Bus.Receive
  /-- Where the result goes. -/
  dest : Option Nat
  /-- When it began. -/
  began : Nat
  sorted : Bool

/-- A stop for a command. -/
structure Stopping where
  consumer : Nat
  stop : Consumer.Stop
  /-- The close of the receiver, once the stop has come to it. -/
  close : Option Bus.Close := none
  /-- Where the result goes. -/
  dest : Option Nat
  /-- When it began; nothing before its first step. -/
  began : Nat

/-- The tasks of a session. -/
inductive Task where
  | command (c : Command)
  | sleeping (due : Nat)
  | connecting (c : Remote.Connect) (token : String) (began : Nat)
  | sending (c : Bus.Send)
  | opening (c : Bus.Open) (purpose : Purpose)
  | fetching (f : Fetching)
  | settling (c : Bus.Settle)
  | closing (c : Bus.Close)
  | joining (job : Nat)
  | starting (consumer : Nat) (s : Consumer.Start)
  | stopping (s : Stopping)
  | working (d : Duty)

/-- What one step of a task leaves behind. -/
abbrev TaskTurn := Turn World Task

/-- The task is over. -/
def halt (w : World) : TaskTurn := { shared := w, task := none }

/-- The task goes on. -/
def goOn (w : World) (t : Task) : TaskTurn := { shared := w, task := some t }

/-- Takes over what a step of a call has done to the buses. -/
def World.afterBus {κ α : Type} (w : World) (r : Step Bus κ α) : World :=
  { w with bus := r.state }.write r.logs

namespace Stopping

/-- Whether a stop can go on. -/
def isReady (now : Nat) (w : World) (s : Stopping) : Bool :=
  w.isAborted s.dest ||
  match s.close with
  | some c => c.isReady w.bus
  | none => s.stop.isReady now (w.member s.consumer).consumer

/-- Turns to the receiver when a stop has come to it. -/
def withClose (w : World) (s : Stopping) : Stopping :=
  match s.stop with
  | .closing => { s with close := some (.start w.bus (w.member s.consumer).consumer.receiver) }
  | _ => s

/-- One step of a stop. -/
def step (now : Nat) (w : World) (s : Stopping) : TaskTurn :=
  if w.isAborted s.dest then halt w
  else
    match s.close with
    | some c =>
      let r := c.step w.bus
      let w := w.afterBus r
      match r.progress with
      | .on c => goOn w (.stopping { s with close := some c })
      | .done closed => goOn w (.stopping { s with close := none, stop := .storing closed })
    | none =>
      let r := s.stop.step now (w.member s.consumer).consumer
      let w := (w.setConsumer s.consumer r.state).write r.logs
      match r.progress with
      | .on stop => goOn w (.stopping (withClose w { s with stop := stop }))
      | .done result => halt (w.finish s.dest (.ended result (now - s.began)))

end Stopping

namespace Fetching

/-- One step of a receive for a command. -/
def step (now : Nat) (w : World) (f : Fetching) : TaskTurn :=
  if w.isAborted f.dest then halt { w with bus := f.call.drop w.bus }
  else
    let r := f.call.step now w.bus
    let w := w.afterBus r
    match r.progress with
    | .on c => goOn w (.fetching { f with call := c })
    | .done result => halt (w.finish f.dest (.received result (now - f.began) f.sorted))

/-- A receive that is asked for. -/
def ofFetch (w : World) (f : Fetch) (dest : Option Nat) (now : Nat) : Option Fetching :=
  (w.receivers.get? f.receiver).map fun r =>
    { call := .knocking r f.most f.timeout, dest := dest, began := now, sorted := f.sorted }

end Fetching

/-- The workers of a new crew. -/
def workersOf (w : World) (consumer crew : Nat) : List Task :=
  let c := (w.member consumer).consumer
  (c.crew crew).pool.handles.map fun n =>
    .working { consumer := consumer, crew := crew, worker := ⟨n, c.settings⟩ }

/-- Takes a new receiver, or the failure to create one, to where it is wanted. -/
def settleIn (w : World) (purpose : Purpose) (result : Except BusError Source) : World :=
  match purpose, result with
  | .receiver _ _ _, .error e => w.reply (.failed e)
  | .receiver name script closeError, .ok source =>
    let (n, w) := w.addReceiver ⟨source, script, closeError⟩
    { w with receivers := w.receivers.put name n }.reply .ok
  | .consumer _ settings _, .error e =>
    w.reply (.failed (Consumer.creationError settings.entity e))
  | .consumer name settings handler, .ok source =>
    let (n, w) := w.addReceiver { source := source }
    (w.addConsumer name ⟨{ settings := settings, receiver := n }, handler⟩).reply
      (.settings settings)

/-- The first step of a command that needs a producer. -/
def withProducer (w : World) (name : String) (go : Producer → TaskTurn) : TaskTurn :=
  match w.producers.get? name with
  | some p => go p
  | none => halt (w.reply .unknown)

/-- The first step of a command that needs a receiver. -/
def withReceiver (w : World) (name : String) (go : Nat → TaskTurn) : TaskTurn :=
  match w.receivers.get? name with
  | some r => go r
  | none => halt (w.reply .unknown)

/-- The first step of a command that needs a consumer. -/
def withConsumer (w : World) (name : String) (go : Nat → TaskTurn) : TaskTurn :=
  match w.consumers.get? name with
  | some c => go c
  | none => halt (w.reply .unknown)

/-- The first step of a command that is about a call in the background. -/
def withJob (w : World) (name : String) (go : Nat → TaskTurn) : TaskTurn :=
  match w.jobNames.get? name with
  | some n => go n
  | none => halt (w.reply .unknown)

/-- The first step of a command that creates a consumer. -/
def createConsumer (w : World) (name : String) (settings : ConsumerSettings) (handler : Handler)
    (supply : Supply) : TaskTurn :=
  let settings := settings.normalized
  let purpose := Purpose.consumer name settings handler
  match supply with
  | .client => goOn w (.opening (.start w.medium settings.entity) purpose)
  | .failure e => halt (settleIn w purpose (.error e))
  | .receiver r => withReceiver w r fun n =>
    halt ((w.addConsumer name ⟨{ settings := settings, receiver := n }, handler⟩).reply
      (.settings settings))

/-- The first step of a command. -/
def stepCommand (now : Nat) (w : World) : Command → TaskTurn
  | .sleep ms => goOn w (.sleeping (now + ms))
  | .createSubscription topic name =>
    let bus := { w.bus with broker := w.bus.broker.createSubscription topic name }
    halt ({ w with bus := bus }.reply .ok)
  | .fault change =>
    let broker := w.bus.broker
    let broker := { broker with faults := change.apply broker.faults }
    halt ({ w with bus := { w.bus with broker := broker } }.reply .ok)
  | .connect address =>
    let (result, logs, remote) := Remote.connect w.bus.remote address
    halt (({ w with bus := { w.bus with remote := remote } }.write logs).reply (.ended result 0))
  | .connectWithRetry address policy token =>
    goOn w (.connecting { address := address, policy := policy } token now)
  | .push entity messages =>
    let remote := w.bus.remote
    let remote := { remote with network := remote.network.push entity messages }
    halt ({ w with bus := { w.bus with remote := remote } }.reply .ok)
  | .arrange kind outcomes =>
    let remote := w.bus.remote
    let remote := { remote with network := remote.network.arrange kind outcomes }
    halt ({ w with bus := { w.bus with remote := remote } }.reply .ok)
  | .send target body options => goOn w (.sending (.one w.medium target body options))
  | .sendBatch target bodies options => goOn w (.sending (.batch w.medium target bodies options))
  | .createReceiver name entity script closeError =>
    goOn w (.opening (.start w.medium entity) (.receiver name script closeError))
  | .receive f =>
    match Fetching.ofFetch w f none now with
    | some f => goOn w (.fetching f)
    | none => halt (w.reply .unknown)
  | .receiveAsync f job =>
    let (n, w') := w.addJob job
    match Fetching.ofFetch w' f (some n) now with
    | some f => { shared := w'.reply .ok, task := none, started := [.fetching f] }
    | none => halt (w.reply .unknown)
  | .settle receiver token verdict => withReceiver w receiver fun r =>
    goOn w (.settling (.start w.bus r (w.tokenOf token) verdict))
  | .close receiver => withReceiver w receiver fun r => goOn w (.closing (.start w.bus r))
  | .poll job => withJob w job fun n =>
    match (w.job n).outcome with
    | some o => halt ({ w with jobNames := w.jobNames.remove job }.replyWith o)
    | none => halt (w.reply .pending)
  | .join job => withJob w job fun n =>
    goOn { w with jobNames := w.jobNames.remove job } (.joining n)
  | .abort job => withJob w job fun n =>
    halt ({ w with jobs := w.jobs.set n { w.job n with aborted := true } }.reply .ok)
  | .createProducer name target =>
    match Producer.new target with
    | .error e => halt (w.reply (.failed e))
    | .ok p => halt ({ w with producers := w.producers.put name p }.reply (.producer p))
  | .produce producer body options => withProducer w producer fun p =>
    goOn w (.sending (p.send w.medium body options))
  | .produceText producer text => withProducer w producer fun p =>
    goOn w (.sending (p.sendText w.medium text))
  | .produceJson producer payload options => withProducer w producer fun p =>
    match p.sendJson w.medium payload options with
    | .error e => halt (w.reply (.failed e))
    | .ok c => goOn w (.sending c)
  | .produceBatch producer bodies options => withProducer w producer fun p =>
    match p.sendBatch w.medium bodies options with
    | none => halt (w.reply .ok)
    | some c => goOn w (.sending c)
  | .createConsumer name settings handler supply => createConsumer w name settings handler supply
  | .start consumer token => withConsumer w consumer fun c => goOn w (.starting c (.locking token))
  | .cancel token => halt ({ w with cancelled := token :: w.cancelled }.reply .ok)
  | .stop consumer deadline => withConsumer w consumer fun c =>
    goOn w
      (.stopping { consumer := c, stop := .claimingRunning deadline, dest := none, began := now })
  | .stopAsync consumer deadline job => withConsumer w consumer fun c =>
    let (n, w) := w.addJob job
    { shared := w.reply .ok
      task := none
      started := [.stopping
        { consumer := c, stop := .claimingRunning deadline, dest := some n, began := now }] }
  | .dropConsumer consumer => halt ((w.dropConsumer consumer).reply .ok)

/-- Whether a task can go on. -/
def isReady (now : Nat) (w : World) : Task → Bool
  | .command _ => true
  | .sleeping due => due ≤ now
  | .connecting c token _ => c.isReady now (w.isCancelled token)
  | .sending c => c.isReady w.bus
  | .opening c _ => c.isReady w.bus
  | .fetching f => f.call.isReady now w.bus || w.isAborted f.dest
  | .settling c => c.isReady w.bus
  | .closing c => c.isReady w.bus
  | .joining job => (w.job job).outcome.isSome
  | .starting c s => s.isReady (w.member c).consumer
  | .stopping s => s.isReady now w
  | .working d => d.isReady now w

/-- When a task goes on by itself. -/
def deadline? : Task → Option Nat
  | .sleeping due => some due
  | .connecting c _ _ => c.deadline?
  | .fetching f => f.call.deadline?
  | .stopping s => s.stop.deadline?
  | .working d => d.deadline?
  | _ => none

/-- One step of a task. -/
def step (now : Nat) (w : World) : Task → TaskTurn
  | .command c => stepCommand now w c
  | .sleeping _ => halt (w.reply .ok)
  | .connecting c token began =>
    let r := c.step now (w.isCancelled token) w.bus.remote
    let w := { w with bus := { w.bus with remote := r.state } }.write r.logs
    match r.progress with
    | .on c => goOn w (.connecting c token began)
    | .done result => halt (w.reply (.ended result (now - began)))
  | .sending c =>
    let r := c.step now w.bus
    let w := w.afterBus r
    match r.progress with
    | .on c => goOn w (.sending c)
    | .done result => halt (w.replySent result)
  | .opening c purpose =>
    let r := c.step w.bus
    let w := w.afterBus r
    match r.progress with
    | .on c => goOn w (.opening c purpose)
    | .done result => halt (settleIn w purpose result)
  | .fetching f => f.step now w
  | .settling c =>
    let r := c.step w.bus
    let w := w.afterBus r
    match r.progress with
    | .on c => goOn w (.settling c)
    | .done result => halt (w.replyDone result)
  | .closing c =>
    let r := c.step w.bus
    let w := w.afterBus r
    match r.progress with
    | .on c => goOn w (.closing c)
    | .done result => halt (w.replyDone result)
  | .joining job =>
    match (w.job job).outcome with
    | some o => halt (w.replyWith o)
    | none => goOn w (.joining job)
  | .starting consumer s =>
    let r := s.step (w.member consumer).consumer
    let w := (w.setConsumer consumer r.state).write r.logs
    match r.progress with
    | .on s => goOn w (.starting consumer s)
    | .done (.error e) => halt (w.reply (.failed e))
    | .done (.ok crew) =>
      { shared := w.reply .ok, task := none, started := workersOf w consumer crew }
  | .stopping s => s.step now w
  | .working d =>
    let (w, d) := d.step now w
    { shared := w, task := d.map .working }

/-- The behaviour of the tasks of a session. -/
def behaviour : Behaviour World Task := ⟨isReady, deadline?, step⟩

end PeekLock.Session
