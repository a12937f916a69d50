/-!
# PeekLock.Remote.Gate

A gate lets calls through one at a time, or several that share.

A call draws a ticket and may enter once its ticket is inside.  A sole
ticket is inside alone; shared tickets are inside together.  When a ticket
leaves, the gate lets in at once whoever has waited longest, as far as
they may join, so nobody can slip in between, and nobody who shares
overtakes one who waits to be alone.
-/

namespace PeekLock.Remote

/-- How what stands behind a gate is used. -/
inductive Access where
  /-- Together with others. -/
  | shared
  /-- Alone. -/
  | sole
  deriving DecidableEq, Repr

/-- A ticket for a gate. -/
structure Ticket where
  number : Nat
  access : Access
  deriving DecidableEq, Repr

/-- A gate, with the tickets that are inside and those that wait. -/
structure Gate where
  inside : List Ticket := []
  /-- The waiting tickets, the oldest first. -/
  line : List Ticket := []
  /-- How many tickets have been drawn. -/
  drawn : Nat := 0
  deriving DecidableEq, Repr, Inhabited

namespace Gate

/-- Whether nobody is inside. -/
def isFree (g : Gate) : Bool := g.inside.isEmpty

/-- Whether a ticket may enter. -/
def admits (g : Gate) (ticket : Nat) : Bool := g.inside.any (·.number = ticket)

/-- Whether one more may join those who are inside. -/
def mayJoin (inside : List Ticket) : Access → Bool
  | .sole => inside.isEmpty
  | .shared => inside.all (·.access = .shared)

/-- Lets tickets in, up to the first that may not join. -/
def letIn (inside : List Ticket) : List Ticket → List Ticket × List Ticket
  | [] => (inside, [])
  | t :: rest =>
    if mayJoin inside t.access then letIn (inside ++ [t]) rest else (inside, t :: rest)

/-- Lets in whoever may enter. -/
def refill (g : Gate) : Gate :=
  let (inside, line) := letIn g.inside g.line
  { g with inside := inside, line := line }

/-- Draws a ticket; it is inside at once if it need not wait. -/
def draw (g : Gate) (access : Access) : Nat × Gate :=
  (g.drawn, refill { g with line := g.line ++ [⟨g.drawn, access⟩], drawn := g.drawn + 1 })

/-- A ticket is given back, whether it is inside or waits. -/
def leave (g : Gate) (ticket : Nat) : Gate :=
  refill { g with
    inside := g.inside.filter (·.number ≠ ticket)
    line := g.line.filter (·.number ≠ ticket) }

end Gate

end PeekLock.Remote
