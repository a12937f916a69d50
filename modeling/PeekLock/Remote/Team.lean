import PeekLock.Remote.Traffic

/-!
# PeekLock.Remote.Team

Some callers that share a receiver of the remote bus.

A team is a traffic with those who call one receiver in it.  Each of them
makes one call at a time: it receives, then settles every message that it
was handed, once and in any order, and only then receives again.  Nobody
else calls the receiver.  Everything else is left open: what other calls
are made of the bus, which call takes its next step, what the other side
answers, and who drops a receive or never calls again.
-/

namespace PeekLock.Remote

/-- Somebody who calls a receiver. -/
structure Member where
  /-- The tokens of the messages that are not settled yet. -/
  owed : List LockToken := []
  /-- The number of the call that is waited for. -/
  call : Option Nat := none

namespace Member

/-- What a member may demand of a receiver. -/
def mayDemand (x : Member) (r : Nat) : Demand → Bool
  | .receive r' .. => r' = r && x.owed.isEmpty
  | .settle r' token _ => r' = r && x.owed.contains token
  | _ => false

/-- What is still owed when a demand has been answered. -/
def owedAfter (x : Member) : Demand → Outcome → List LockToken
  | .settle _ token _, _ => x.owed.erase token
  | _, .received (.ok messages) => messages.map (·.lockToken)
  | _, _ => x.owed

/-- A member goes on when its call is over. -/
def hear (a : Traffic) (x : Member) : Member :=
  match x.call.bind (a.calls[·]?) with
  | some ⟨q, .done o⟩ => { owed := x.owedAfter q o }
  | _ => x

end Member

/-- A traffic with those who call a receiver in it. -/
structure Team where
  receiver : Nat
  traffic : Traffic
  members : List Member

/-- What can happen next. -/
inductive Team.Move where
  /-- The member of that number calls the receiver. -/
  | call (member : Nat) (q : Demand)
  /-- Something else happens. -/
  | other (m : Remote.Move)

namespace Team

/-- So many members that have not called the receiver yet. -/
def gather (a : Traffic) (r n : Nat) : Team :=
  { receiver := r, traffic := a, members := List.replicate n {} }

/-- A team after something has happened in its traffic. -/
def hear (s : Team) (a : Traffic) : Team :=
  { s with traffic := a, members := s.members.map (·.hear a) }

/-- A member has begun a call, in a traffic that has so many calls before. -/
def enlist (s : Team) (k : Nat) (x : Member) (a : Traffic) : Team :=
  { s with
    traffic := a
    members := s.members.set k { x with call := some s.traffic.calls.length } }

/-- Whether a move begins a call of a receiver. -/
def begins (r : Nat) : Remote.Move → Bool
  | .begin q => q.receiver? = some r
  | _ => false

/-- What a move leads to, if it can happen. -/
def after (s : Team) : Move → Option Team
  | .call k q =>
    match s.members[k]? with
    | some x =>
      if x.call.isNone && x.mayDemand s.receiver q then
        (s.traffic.after (.begin q)).map (s.enlist k x)
      else none
    | none => none
  | .other m => if begins s.receiver m then none else (s.traffic.after m).map s.hear

/-- What some moves lead to, one after the other. -/
def run (s : Team) (moves : List Move) : Option Team := moves.foldlM after s

/-- One team leads to another. -/
inductive Leads : Team → Team → Prop where
  | refl (s : Team) : Leads s s
  | step {s t u : Team} {m : Move} : Leads s t → t.after m = some u → Leads s u

end Team

end PeekLock.Remote
