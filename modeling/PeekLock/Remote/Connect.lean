import PeekLock.Remote.Lanes
import PeekLock.Retry.Run

/-!
# PeekLock.Remote.Connect

Connecting to the remote bus, once or with further attempts.
-/

namespace PeekLock.Remote

/-- Tries to connect. -/
def connect (s : Client) (address : String) : Except BusError Unit × List LogRecord × Client :=
  match s.ask (.connect address) with
  | (some problem, s) => (.error (.connectionFailed problem), [], s)
  | (none, s) => (.ok (), [.remote .info "Connected to Azure Service Bus"], s)

/-- Where repeated attempts to connect are suspended. -/
inductive Connect.Point where
  /-- About to try, for the time of that number. -/
  | trying (attempt : Nat)
  /-- Pausing after the attempt of that number, until a point in time. -/
  | pausing (attempt due : Nat)
  deriving DecidableEq, Repr

/-- Repeated attempts to connect on their way. -/
structure Connect where
  address : String
  policy : RetryPolicy
  point : Connect.Point := .trying 0

namespace Connect

/-- Whether the attempts can go on. -/
def isReady (now : Nat) (cancelled : Bool) (c : Connect) : Bool :=
  match c.point with
  | .trying _ => true
  | .pausing _ due => cancelled || due ≤ now

/-- When the attempts go on at the latest. -/
def deadline? (c : Connect) : Option Nat :=
  match c.point with
  | .trying _ => none
  | .pausing _ due => some due

/-- One step of the attempts; cancellation is seen before an attempt and
during a pause. -/
def step (now : Nat) (cancelled : Bool) (s : Client) (c : Connect) :
    Step Client Connect (Except BusError Unit) :=
  if cancelled then { state := s, progress := .done (.error Retry.cancelled) }
  else
    match c.point with
    | .pausing attempt _ =>
      { state := s, progress := .on { c with point := .trying (attempt + 1) } }
    | .trying attempt =>
      let (result, logs, s) := connect s c.address
      match Retry.next c.policy attempt result with
      | .done result => { state := s, logs := logs, progress := .done result }
      | .giveUp e =>
        { state := s
          logs := logs ++ [Retry.failureLog c.policy attempt e]
          progress := .done (.error (Retry.exhausted c.policy (some e))) }
      | .pause e length =>
        { state := s
          logs := logs ++ [Retry.failureLog c.policy attempt e]
          progress := .on { c with point := .pausing attempt (now + length.ticks) } }

end Connect

end PeekLock.Remote
