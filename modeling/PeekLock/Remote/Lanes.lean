import PeekLock.Progress
import PeekLock.Remote.Gate
import PeekLock.Remote.Network

/-!
# PeekLock.Remote.Lanes

The state of a client of the remote bus.

A link can serve one call at a time, so a receiver spreads over several
*lanes*, each with a link of its own and behind a gate of its own.  A lane
remembers the messages it has handed out that are not settled yet; they
can only be settled on the link they came on, and the lane takes no
receive before they are.  The list of the lanes is behind a gate as well:
several calls may look at it together, but it is changed by one alone.
-/

namespace PeekLock.Remote

/-- A lane of a receiver. -/
structure Lane where
  /-- The number that its tokens carry. -/
  number : Nat
  /-- Its link, until it is disposed. -/
  link : Option Nat
  /-- The unsettled messages by token. -/
  inFlight : List (LockToken × Incoming) := []

instance : Inhabited Lane := ⟨⟨0, none, []⟩⟩

/-- The message that a lane has handed out under a token. -/
def Lane.message? (l : Lane) (token : LockToken) : Option Incoming :=
  (l.inFlight.find? (·.1 = token)).map (·.2)

/-- A receiver of the remote bus. -/
structure LaneSet where
  entity : EntityPath
  /-- Every lane that was ever opened. -/
  lanes : List Lane
  /-- The positions of the lanes that are still listed; closing takes them off
  the list. -/
  listed : List Nat
  closed : Bool := false

instance : Inhabited LaneSet := ⟨⟨.queue "", [], [], false⟩⟩

/-- What stands behind a gate. -/
inductive Site where
  /-- The connection, while senders and links are created. -/
  | connection
  /-- The list of the lanes of a receiver. -/
  | list (receiver : Nat)
  /-- A lane of a receiver. -/
  | lane (receiver position : Nat)
  deriving DecidableEq, Repr

/-- A client of the remote bus, with its receivers. -/
structure Client where
  network : Network := {}
  gates : Table Site Gate := .empty
  receivers : List LaneSet := []
  /-- Where identifiers come from. -/
  supply : Identifier.Supply := Identifier.counting
  /-- How many identifiers have been generated. -/
  issued : Nat := 0

instance : Inhabited Client := ⟨{}⟩

namespace Client

/-- The receiver of that number. -/
def receiver (s : Client) (r : Nat) : LaneSet := s.receivers.getD r default

/-- Changes a receiver. -/
def setReceiver (s : Client) (r : Nat) (set : LaneSet) : Client :=
  { s with receivers := s.receivers.set r set }

/-- The lane at a position. -/
def lane (s : Client) (r position : Nat) : Lane := (s.receiver r).lanes.getD position default

/-- Changes a lane. -/
def setLane (s : Client) (r position : Nat) (lane : Lane) : Client :=
  let set := s.receiver r
  s.setReceiver r { set with lanes := set.lanes.set position lane }

/-- Makes a request. -/
def ask (s : Client) (request : Request) : Option String × Client :=
  let (problem, network) := s.network.ask request
  (problem, { s with network := network })

/-! ## Gates -/

/-- The gate of a site. -/
def gate (s : Client) (site : Site) : Gate := s.gates.getD site {}

/-- Draws a ticket for a site. -/
def draw (s : Client) (site : Site) (access : Access) : Nat × Client :=
  let (ticket, gate) := (s.gate site).draw access
  (ticket, { s with gates := s.gates.put site gate })

/-- A ticket for a site is given back. -/
def leave (s : Client) (site : Site) (ticket : Nat) : Client :=
  { s with gates := s.gates.put site ((s.gate site).leave ticket) }

/-- Whether a ticket may enter a site. -/
def admits (s : Client) (site : Site) (ticket : Nat) : Bool := (s.gate site).admits ticket

/-- Whether a lane can take a receive right now. -/
def isIdle (s : Client) (r position : Nat) : Bool :=
  let lane := s.lane r position
  (s.gate (.lane r position)).isFree && lane.link.isSome && lane.inFlight.isEmpty

/-! ## Handing out -/

/-- Messages with the tokens they are handed out under, of a supply, from that one on. -/
def tokenAll (supply : Identifier.Supply) (number issued : Nat) :
    List Incoming → List (LockToken × Incoming)
  | [] => []
  | m :: rest => (lockToken supply number issued, m) :: tokenAll supply number (issued + 1) rest

/-- A lane hands messages out and remembers them. -/
def deliver (s : Client) (r position : Nat) (messages : List Incoming) : List Message × Client :=
  let lane := s.lane r position
  let tokened := tokenAll s.supply lane.number s.issued messages
  let s := s.setLane r position { lane with inFlight := lane.inFlight ++ tokened }
  (tokened.map fun (token, m) => m.message token, { s with issued := s.issued + messages.length })

/-- Adds a lane at the end of the list; its position comes with it. -/
def addLane (s : Client) (r link : Nat) : Nat × Client :=
  let set := s.receiver r
  let position := set.lanes.length
  let lane : Lane := { number := set.listed.length, link := some link }
  (position,
    s.setReceiver r { set with lanes := set.lanes ++ [lane], listed := set.listed ++ [position] })

end Client

end PeekLock.Remote
