import PeekLock.Remote.Traffic

/-!
# PeekLock.Remote.Register

A register of the links of a client.

The traffic of a client with three books on the side, which no call reads:
which receiver each link was opened for, which close has marked a receiver,
and which links the closes have disposed.
-/

namespace PeekLock.Remote

/-- A link that was opened for a receiver. -/
structure Opening where
  receiver : Nat
  link : Nat

/-- A close that has marked its receiver as closed. -/
structure Closing where
  /-- The number of the close. -/
  call : Nat
  receiver : Nat

/-- A link that a close has disposed. -/
structure Disposal where
  /-- The number of the close. -/
  call : Nat
  receiver : Nat
  link : Nat
  /-- How it failed, if it did. -/
  problem : Option String

namespace Call

/-- The link that the next step of a call opens. -/
def opening? (s : Client) : Call → Option Opening
  | .opening (.linking _ _ none) => some ⟨s.receivers.length, s.network.links.length⟩
  | .receiving c =>
    match c.point with
    | .linking _ _ none => some ⟨c.receiver, s.network.links.length⟩
    | _ => none
  | _ => none

/-- The receiver that the next step of the call of that number marks as closed. -/
def closing? (s : Client) (i : Nat) : Call → Option Closing
  | .closing c =>
    match c.point with
    | .marking => if (s.receiver c.receiver).closed then none else some ⟨i, c.receiver⟩
    | _ => none
  | _ => none

/-- The link that the next step of the call of that number disposes. -/
def disposal? (s : Client) (i : Nat) : Call → Option Disposal
  | .closing c =>
    match c.point with
    | .entering position .. =>
      (s.lane c.receiver position).link.map fun link =>
        ⟨i, c.receiver, link, (s.ask (.disposeLink link)).1⟩
    | _ => none
  | _ => none

end Call

/-- The traffic of a client with a register of its links. -/
structure Register where
  traffic : Traffic := {}
  /-- Every link that was opened, the oldest first. -/
  openings : List Opening := []
  /-- Every close that has marked its receiver, the oldest first. -/
  closings : List Closing := []
  /-- Every link that was disposed, the oldest first. -/
  disposals : List Disposal := []

namespace Register

/-- The call that takes its next step in a move.  (A receive that has no number left for its lane
takes none.) -/
def acting? (s : Register) : Move → Option (Nat × Call)
  | .advance i =>
    match s.traffic.calls[i]? with
    | some ⟨_, .on c⟩ => if (c.overflowing? s.traffic.client).isNone then some (i, c) else none
    | _ => none
  | _ => none

/-- What the step of a call puts down, with what it leads to. -/
def note (s : Register) (i : Nat) (c : Call) (t : Traffic) : Register :=
  { traffic := t
    openings := s.openings ++ (c.opening? s.traffic.client).toList
    closings := s.closings ++ (c.closing? s.traffic.client i).toList
    disposals := s.disposals ++ (c.disposal? s.traffic.client i).toList }

/-- What a move leads to, if it can happen. -/
def after (s : Register) (m : Move) : Option Register :=
  (s.traffic.after m).map fun t =>
    match s.acting? m with
    | some (i, c) => s.note i c t
    | none => { s with traffic := t }

/-- What some moves lead to, one after the other. -/
def run (s : Register) (moves : List Move) : Option Register := moves.foldlM after s

/-- One register leads to another. -/
inductive Leads : Register → Register → Prop where
  | refl (s : Register) : Leads s s
  | step {s t u : Register} {m : Move} : Leads s t → t.after m = some u → Leads s u

/-- The register of a client that has done nothing yet. -/
def start (supply : Identifier.Supply) (print : Amqp.Value → String) : Register :=
  { traffic := .start supply print }

/-- A register that can come about, wherever identifiers come from and however values are
printed. -/
def Reachable (s : Register) : Prop := ∃ supply print, Leads (start supply print) s

/-! ## Looking things up -/

/-- The links that were opened for a receiver, the oldest first. -/
def openedFor (s : Register) (r : Nat) : List Nat :=
  (s.openings.filter (·.receiver = r)).map (·.link)

/-- The calls that have marked a receiver as closed. -/
def closersOf (s : Register) (r : Nat) : List Nat :=
  (s.closings.filter (·.receiver = r)).map (·.call)

/-- The links of a receiver that were disposed, the oldest first. -/
def disposalsOf (s : Register) (r : Nat) : List Disposal := s.disposals.filter (·.receiver = r)

/-- What a close answers after these disposals: the first failure, if there is one. -/
def verdict (disposals : List Disposal) : Except BusError Unit :=
  match disposals.findSome? (·.problem) with
  | none => .ok ()
  | some problem => .error (.internalError problem)

end Register

end PeekLock.Remote
