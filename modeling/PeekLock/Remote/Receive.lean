import PeekLock.Remote.Send

/-!
# PeekLock.Remote.Receive

Receiving from the remote bus.

A receive takes the first lane that is idle: nobody uses it, its link is
there, and it has no unsettled messages.  If there is none, the receive
opens another lane and has it for itself before others can see it.
Dropping a receive frees whatever gate it holds or waits for.
-/

namespace PeekLock.Remote

/-- Where a receive is suspended. -/
inductive Receive.Point where
  /-- Not begun yet. -/
  | arriving
  /-- Waiting to look at the list of the lanes. -/
  | surveying (ticket : Nat)
  /-- Waiting to change the list of the lanes. -/
  | expanding (ticket : Nat)
  /-- Holding the list, and waiting for the connection to open a link. -/
  | opening (list ticket : Nat)
  /-- Holding the list and the connection while the link is opened; how that will fail, if it
  does. -/
  | linking (list ticket : Nat) (problem : Option String)
  /-- Holding a lane, and waiting for messages until a point in time. -/
  | pulling (position ticket link deadline : Nat)
  deriving DecidableEq, Repr

/-- A receive on its way. -/
structure Receive where
  receiver : Nat
  most : Nat
  timeout : Duration
  point : Receive.Point := .arriving
  deriving DecidableEq, Repr

namespace Receive

/-- The result of a receive. -/
abbrev Result := Except BusError (List Message)

/-- Whether a receive can go on. -/
def isReady (now : Nat) (s : Client) (c : Receive) : Bool :=
  match c.point with
  | .arriving | .linking .. => true
  | .surveying ticket | .expanding ticket => s.admits (.list c.receiver) ticket
  | .opening _ ticket => s.admits .connection ticket
  | .pulling _ _ link deadline =>
    !((s.network.waitingFor link).take c.most).isEmpty || deadline ≤ now

/-- When a receive goes on by itself. -/
def deadline? (c : Receive) : Option Nat :=
  match c.point with
  | .pulling _ _ _ deadline => some deadline
  | _ => none

/-- Suspends a receive at another point. -/
def goTo (c : Receive) (s : Client) (logs : List LogRecord) (p : Point) :
    Step Client Receive Result :=
  { state := s, logs := logs, progress := .on { c with point := p } }

/-- Asks the link of a lane for messages; the ticket is inside the lane. -/
def pull (c : Receive) (now : Nat) (s : Client) (logs : List LogRecord) (position ticket : Nat) :
    Step Client Receive Result :=
  match (s.lane c.receiver position).link with
  | none =>
    { state := s.leave (.lane c.receiver position) ticket
      logs := logs
      progress := .done (.error .receiverClosed) }
  | some link =>
    match s.ask (.receive link c.most c.timeout) with
    | (some problem, s) =>
      { state := s.leave (.lane c.receiver position) ticket
        logs := logs
        progress := .done (.error (.receiveFailed problem)) }
    | (none, s) => c.goTo s logs (.pulling position ticket link (now + c.timeout.ticks))

/-- One step of a receive. -/
def step (now : Nat) (s : Client) (c : Receive) : Step Client Receive Result :=
  let r := c.receiver
  match c.point with
  | .arriving =>
    if (s.receiver r).closed then { state := s, progress := .done (.error .receiverClosed) }
    else
      let (ticket, s) := s.draw (.list r) .shared
      c.goTo s [] (.surveying ticket)
  | .surveying list =>
    let s := s.leave (.list r) list
    match (s.receiver r).listed.find? (s.isIdle r) with
    | some position =>
      let (ticket, s) := s.draw (.lane r position) .sole
      c.pull now s [] position ticket
    | none =>
      let (ticket, s) := s.draw (.list r) .sole
      c.goTo s [] (.expanding ticket)
  | .expanding list =>
    if (s.receiver r).closed then
      { state := s.leave (.list r) list, progress := .done (.error .receiverClosed) }
    else
      let (ticket, s) := s.draw .connection .sole
      c.goTo s [] (.opening list ticket)
  | .opening list connection =>
    let (problem, s) := s.ask (.openLink (s.receiver r).entity)
    c.goTo s [] (.linking list connection problem)
  | .linking list connection problem =>
    let entity := (s.receiver r).entity
    match linked s entity problem with
    | (.error e, s) =>
      { state := (s.leave .connection connection).leave (.list r) list
        progress := .done (.error e) }
    | (.ok link, s) =>
      let (position, s) := (s.leave .connection connection).addLane r link
      let (ticket, s) := s.draw (.lane r position) .sole
      let number := (s.lane r position).number
      let opened : LogRecord :=
        .remote .debug s!"Opened receiver lane {number} for {entity.text}"
      c.pull now (s.leave (.list r) list) [opened] position ticket
  | .pulling position ticket link _ =>
    let (incoming, network) := s.network.take link c.most
    let (messages, s) := { s with network := network }.deliver r position incoming
    { state := s.leave (.lane r position) ticket
      logs := (incoming.map (Incoming.logs network.print)).flatten
      progress := .done (.ok messages) }

/-- Drops a receive. -/
def drop (s : Client) (c : Receive) : Client :=
  let r := c.receiver
  match c.point with
  | .arriving => s
  | .surveying ticket | .expanding ticket => s.leave (.list r) ticket
  | .opening list ticket | .linking list ticket _ =>
    (s.leave .connection ticket).leave (.list r) list
  | .pulling position ticket _ _ => s.leave (.lane r position) ticket

end Receive

end PeekLock.Remote
