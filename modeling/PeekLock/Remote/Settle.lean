import PeekLock.Broker.Settle
import PeekLock.Remote.Lanes

/-!
# PeekLock.Remote.Settle

Completing and abandoning messages of the remote bus, and closing its
receivers.

The token of a message names its lane.  The lane forgets the message
before the link is asked to settle it, so a settlement that fails is not
repeated.  Closing takes the lanes off the list and disposes their links
one after the other; of several failures the first one is reported.
-/

namespace PeekLock.Remote

/-! ## Settling -/

/-- Where a settlement is suspended. -/
inductive Settle.Point where
  /-- Not begun yet. -/
  | arriving
  /-- Waiting to look the lane up in the list. -/
  | finding (number ticket : Nat)
  /-- Waiting for the lane. -/
  | entering (position ticket : Nat)
  /-- Holding the lane while its link settles; how that will fail, if it does. -/
  | asking (position ticket : Nat) (problem : Option String)

/-- A settlement on its way. -/
structure Settle where
  receiver : Nat
  token : LockToken
  verdict : Verdict
  point : Settle.Point := .arriving

namespace Settle

/-- Whether a settlement can go on. -/
def isReady (s : Client) (c : Settle) : Bool :=
  match c.point with
  | .finding _ ticket => s.admits (.list c.receiver) ticket
  | .entering position ticket => s.admits (.lane c.receiver position) ticket
  | _ => true

/-- The request that settles a message. -/
def request (link : Nat) (m : Incoming) : Verdict → Request
  | .complete => .complete link m.id
  | .abandon => .abandon link m.id

/-- The error of a settlement that the remote bus refuses. -/
def failed (problem : String) : Verdict → BusError
  | .complete => .completeFailed problem
  | .abandon => .abandonFailed problem

/-- The result of a settlement that the remote bus has answered. -/
def answer (v : Verdict) (problem : Option String) : Except BusError Unit :=
  problem.elim (.ok ()) fun e => .error (failed e v)

/-- Ends a settlement. -/
def finish (s : Client) (result : Except BusError Unit) :
    Step Client Settle (Except BusError Unit) :=
  { state := s, progress := .done result }

/-- One step of a settlement. -/
def step (s : Client) (c : Settle) : Step Client Settle (Except BusError Unit) :=
  let r := c.receiver
  let lost : Except BusError Unit := .error (.lockLost c.token.text)
  match c.point with
  | .arriving =>
    if (s.receiver r).closed then finish s (.error .receiverClosed)
    else
      match laneOf c.token with
      | none => finish s lost
      | some number =>
        let (ticket, s) := s.draw (.list r) .shared
        { state := s, progress := .on { c with point := .finding number ticket } }
  | .finding number list =>
    let s := s.leave (.list r) list
    match (s.receiver r).listed[number]? with
    | none => finish s lost
    | some position =>
      let (ticket, s) := s.draw (.lane r position) .sole
      { state := s, progress := .on { c with point := .entering position ticket } }
  | .entering position ticket =>
    let lane := s.lane r position
    match lane.message? c.token with
    | none => finish (s.leave (.lane r position) ticket) lost
    | some m =>
      let s := s.setLane r position { lane with inFlight := lane.inFlight.filter (·.1 ≠ c.token) }
      match lane.link with
      | none => finish (s.leave (.lane r position) ticket) (.error .receiverClosed)
      | some link =>
        let (problem, s) := s.ask (request link m c.verdict)
        { state := s, progress := .on { c with point := .asking position ticket problem } }
  | .asking position ticket problem =>
    finish (s.leave (.lane r position) ticket) (answer c.verdict problem)

end Settle

/-! ## Closing -/

/-- What a close has seen so far. -/
structure Close.Tally where
  /-- How many lanes there are. -/
  lanes : Nat
  /-- How many unsettled messages they had. -/
  unsettled : Nat := 0
  result : Except BusError Unit := .ok ()

/-- Where a close is suspended. -/
inductive Close.Point where
  /-- About to mark the receiver as closed. -/
  | marking
  /-- Waiting to take the lanes off the list. -/
  | taking (ticket : Nat)
  /-- Waiting for a lane. -/
  | entering (position ticket : Nat) (rest : List Nat) (tally : Close.Tally)
  /-- Holding a lane while its link is disposed; how that will fail, if it does. -/
  | disposing (position ticket : Nat) (problem : Option String) (rest : List Nat)
    (tally : Close.Tally)

/-- A close on its way. -/
structure Close where
  receiver : Nat
  point : Close.Point := .marking

namespace Close

/-- Whether a close can go on. -/
def isReady (s : Client) (c : Close) : Bool :=
  match c.point with
  | .taking ticket => s.admits (.list c.receiver) ticket
  | .entering position ticket _ _ => s.admits (.lane c.receiver position) ticket
  | _ => true

/-- The records of a close. -/
def logs (entity : EntityPath) (t : Tally) : List LogRecord :=
  let warning : List LogRecord :=
    if t.unsettled = 0 then []
    else
      [.remote .warn (s!"Closing receiver for {entity.text} with {t.unsettled} unsettled " ++
        "messages, they return after lock expiry")]
  warning ++ [.remote .debug s!"Disposed {t.lanes} receiver lanes for {entity.text}"]

/-- Goes on with the lanes that are left. -/
def goOn (c : Close) (s : Client) (tally : Tally) :
    List Nat → Step Client Close (Except BusError Unit)
  | [] =>
    { state := s
      logs := logs (s.receiver c.receiver).entity tally
      progress := .done tally.result }
  | position :: rest =>
    let (ticket, s) := s.draw (.lane c.receiver position) .sole
    { state := s, progress := .on { c with point := .entering position ticket rest tally } }

/-- The first of two failures, if there is one. -/
def firstFailure (result : Except BusError Unit) (problem : Option String) : Except BusError Unit :=
  match result, problem with
  | .ok (), some problem => .error (.internalError problem)
  | result, _ => result

/-- One step of a close; closing a closed receiver does nothing. -/
def step (s : Client) (c : Close) : Step Client Close (Except BusError Unit) :=
  let r := c.receiver
  let set := s.receiver r
  match c.point with
  | .marking =>
    if set.closed then { state := s, progress := .done (.ok ()) }
    else
      let (ticket, s) := (s.setReceiver r { set with closed := true }).draw (.list r) .sole
      { state := s, progress := .on { c with point := .taking ticket } }
  | .taking list =>
    let s := (s.setReceiver r { set with listed := [] }).leave (.list r) list
    c.goOn s { lanes := set.listed.length } set.listed
  | .entering position ticket rest tally =>
    let lane := s.lane r position
    let tally := { tally with unsettled := tally.unsettled + lane.inFlight.length }
    let s := s.setLane r position { lane with inFlight := [], link := none }
    match lane.link with
    | none => c.goOn (s.leave (.lane r position) ticket) tally rest
    | some link =>
      let (problem, s) := s.ask (.disposeLink link)
      { state := s
        progress := .on { c with point := .disposing position ticket problem rest tally } }
  | .disposing position ticket problem rest tally =>
    c.goOn (s.leave (.lane r position) ticket)
      { tally with result := firstFailure tally.result problem } rest

end Close

end PeekLock.Remote
