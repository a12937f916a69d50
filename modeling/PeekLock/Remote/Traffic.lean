import PeekLock.Remote.Receive
import PeekLock.Remote.Settle

/-!
# PeekLock.Remote.Traffic

Any number of calls of the remote bus at one time, in any order.

A traffic is a client with every call that was ever begun on it.  A move
begins a call, lets one of them take its next step, drops a receive, or
lets time pass.  Which move comes next is left open, so what holds of
every traffic that can be reached holds of every order in which the calls
can take turns.

The other side is left open as well.  Whenever it likes it decides anew
how the next requests end and which messages wait for the links, and it
may refuse a receive that it has kept waiting.

Two books are kept on the side, which no call reads: the `handouts`, with
every message that a receive has returned, and the `askings`, with every
settlement that a link was asked for.
-/

namespace PeekLock.Remote

/-! ## Calls -/

/-- A call of the bus on its way. -/
inductive Call where
  | sending (c : Send)
  | opening (c : Open)
  | receiving (c : Receive)
  | settling (c : Settle)
  | closing (c : Close)

/-- What a call has ended with. -/
inductive Outcome where
  | sent (result : Send.Result)
  | opened (result : Except BusError Nat)
  | received (result : Receive.Result)
  | settled (result : Except BusError Unit)
  | closed (result : Except BusError Unit)
  | dropped

namespace Call

/-- Whether a call can go on. -/
def isReady (now : Nat) (s : Client) : Call → Bool
  | .sending c => c.isReady s
  | .opening c => c.isReady s
  | .receiving c => c.isReady now s
  | .settling c => c.isReady s
  | .closing c => c.isReady s

/-- The receive that is about to open more lanes than a machine word can number. -/
def overflowing? (s : Client) : Call → Option Receive
  | .receiving c =>
    match c.point with
    | .linking .. =>
      if (s.receiver c.receiver).listed.length ≤ Decimal.maxU64 then none else some c
    | _ => none
  | _ => none

/-- One step of a call. -/
def step (now : Nat) (s : Client) : Call → Step Client Call Outcome
  | .sending c => (c.step s).map .sending .sent
  | .opening c => (c.step s).map .opening .opened
  | .receiving c => (c.step now s).map .receiving .received
  | .settling c => (c.step s).map .settling .settled
  | .closing c => (c.step s).map .closing .closed

end Call

/-- What can be demanded of the bus. -/
inductive Demand where
  | send (target : String) (body : List UInt8) (options : SendOptions)
  | sendBatch (target : String) (bodies : List (List UInt8)) (options : SendOptions)
  | createReceiver (entity : String)
  | receive (r most : Nat) (timeout : Duration)
  | settle (r : Nat) (token : LockToken) (verdict : Verdict)
  | close (r : Nat)

namespace Demand

/-- The call that a demand begins. -/
def call : Demand → Call
  | .send target body options => .sending (.buildingOne target body options)
  | .sendBatch target bodies options => .sending (.buildingBatch target bodies options)
  | .createReceiver entity => .opening (.checking entity)
  | .receive r most timeout => .receiving { receiver := r, most := most, timeout := timeout }
  | .settle r token verdict => .settling { receiver := r, token := token, verdict := verdict }
  | .close r => .closing { receiver := r }

/-- The receiver that a demand is about. -/
def receiver? : Demand → Option Nat
  | .receive r _ _ => some r
  | .settle r _ _ => some r
  | .close r => some r
  | _ => none

end Demand

/-! ## The books -/

/-- A message that a receiver has handed out. -/
structure Handout where
  receiver : Nat
  /-- The link that the message came on. -/
  link : Nat
  token : LockToken
  message : Incoming

/-- A settlement that a link was asked for. -/
structure Asking where
  /-- The number of the call that asked. -/
  call : Nat
  verdict : Verdict
  /-- How it failed, if it did. -/
  problem : Option String
  /-- The token that was presented, and the link and the message it was taken for. -/
  subject : Handout

/-- The request that was made. -/
def Asking.request (a : Asking) : Request :=
  Settle.request a.subject.link a.subject.message a.verdict

namespace Call

/-- What the next step of a call hands out. -/
def handouts (s : Client) : Call → List Handout
  | .receiving c =>
    match c.point with
    | .pulling position _ link _ =>
      let number := (s.lane c.receiver position).number
      (Client.tokenAll s.supply number s.issued (s.network.take link c.most).1).map
        fun x => ⟨c.receiver, link, x.1, x.2⟩
    | _ => []
  | _ => []

/-- What the next step of the call of that number asks a link for. -/
def asking? (s : Client) (i : Nat) : Call → Option Asking
  | .settling c =>
    match c.point with
    | .entering position _ =>
      let lane := s.lane c.receiver position
      match lane.message? c.token, lane.link with
      | some m, some link =>
        let problem := (s.ask (Settle.request link m c.verdict)).1
        some ⟨i, c.verdict, problem, ⟨c.receiver, link, c.token, m⟩⟩
      | _, _ => none
    | _ => none
  | _ => none

end Call

/-! ## Traffic -/

/-- A call that was begun. -/
structure Entry where
  demand : Demand
  progress : Progress Call Outcome

/-- A client with every call that was ever begun on it. -/
structure Traffic where
  /-- The time, in milliseconds. -/
  now : Nat := 0
  client : Client := {}
  /-- The calls, by number. -/
  calls : List Entry := []
  /-- Every message that was handed out, the oldest first. -/
  handouts : List Handout := []
  /-- Every settlement that a link was asked for, the oldest first. -/
  askings : List Asking := []

/-- What can happen next. -/
inductive Move where
  | begin (q : Demand)
  /-- The call of that number takes its next step. -/
  | advance (call : Nat)
  /-- The receive of that number is dropped.  (A worker that stops drops its receive; every other
call is awaited to its end.) -/
  | drop (call : Nat)
  /-- The other side refuses the receive of that number, which waits for messages. -/
  | refuse (call : Nat) (problem : String)
  /-- The other side makes up its mind about the next requests and messages. -/
  | arrange (outcomes : Table String (List (Option String)))
    (waiting : Table String (List Incoming))
  | wait (ms : Nat)

namespace Traffic

/-- A call is begun. -/
def accept (s : Traffic) (q : Demand) : Traffic :=
  { s with calls := s.calls ++ [⟨q, .on q.call⟩] }

/-- The call of that number takes its next step. -/
def advance (s : Traffic) (i : Nat) (q : Demand) (c : Call) : Traffic :=
  let r := c.step s.now s.client
  { s with
    client := r.state
    calls := s.calls.set i ⟨q, r.progress⟩
    handouts := s.handouts ++ c.handouts s.client
    askings := s.askings ++ (c.asking? s.client i).toList }

/-- The receive of that number ends before its time. -/
def cutShort (s : Traffic) (i : Nat) (q : Demand) (c : Receive) (o : Outcome) : Traffic :=
  { s with client := c.drop s.client, calls := s.calls.set i ⟨q, .done o⟩ }

/-- The other side makes up its mind. -/
def arrange (s : Traffic) (outcomes : Table String (List (Option String)))
    (waiting : Table String (List Incoming)) : Traffic :=
  let network := { s.client.network with outcomes := outcomes, waiting := waiting }
  { s with client := { s.client with network := network } }

/-- So many milliseconds pass. -/
def pass (s : Traffic) (ms : Nat) : Traffic := { s with now := s.now + ms }

/-- What a move leads to, if it can happen.  Demands are about receivers that
were created before.  A receive that has no number left for its lane ends there. -/
def after (s : Traffic) : Move → Option Traffic
  | .begin q =>
    if q.receiver?.all (· < s.client.receivers.length) then some (s.accept q) else none
  | .advance i =>
    match s.calls[i]? with
    | some ⟨q, .on c⟩ =>
      if c.isReady s.now s.client then
        match c.overflowing? s.client with
        | some k => some (s.cutShort i q k .dropped)
        | none => some (s.advance i q c)
      else none
    | _ => none
  | .drop i =>
    match s.calls[i]? with
    | some ⟨q, .on (.receiving c)⟩ => some (s.cutShort i q c .dropped)
    | _ => none
  | .refuse i problem =>
    match s.calls[i]? with
    | some ⟨q, .on (.receiving c)⟩ =>
      match c.point with
      | .pulling .. => some (s.cutShort i q c (.received (.error (.receiveFailed problem))))
      | _ => none
    | _ => none
  | .arrange outcomes waiting => some (s.arrange outcomes waiting)
  | .wait ms => some (s.pass ms)

/-- What some moves lead to, one after the other. -/
def run (s : Traffic) (moves : List Move) : Option Traffic := moves.foldlM after s

/-- One traffic leads to another. -/
inductive Leads : Traffic → Traffic → Prop where
  | refl (s : Traffic) : Leads s s
  | step {s t u : Traffic} {m : Move} : Leads s t → t.after m = some u → Leads s u

/-- A client that has done nothing yet. -/
def start (supply : Identifier.Supply) (print : Amqp.Value → String) : Traffic :=
  { client := { network := { print }, supply } }

/-- A traffic that can come about, wherever identifiers come from and however values are
printed. -/
def Reachable (s : Traffic) : Prop := ∃ supply print, Leads (start supply print) s

end Traffic

end PeekLock.Remote
