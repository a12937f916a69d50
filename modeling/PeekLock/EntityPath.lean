import PeekLock.BusError
import PeekLock.Text.Blank

/-!
# PeekLock.EntityPath

The names of the places that messages wait in: a queue, or a subscription
of a topic.

A queue is written as its name and a subscription as
`topic/subscriptions/name`.  Reading accepts exactly the texts that are
written for names made of valid segments — not empty, without a slash
and without a blank — and nothing else is a path.
-/

namespace PeekLock

/-- A queue, or a subscription of a topic. -/
inductive EntityPath where
  | queue (name : String)
  | subscription (topic name : String)
  deriving DecidableEq, Repr, Inhabited

namespace EntityPath

/-- What stands between a topic and its subscription. -/
def marker : String := "subscriptions"

/-- The text of a path. -/
def text : EntityPath → String
  | .queue name => name
  | .subscription topic name => s!"{topic}/{marker}/{name}"

/-- The pieces between the slashes; there is always at least one. -/
def segments : List Char → List (List Char)
  | [] => [[]]
  | c :: rest =>
    if c = '/' then [] :: segments rest
    else
      match segments rest with
      | [] => [[c]]
      | s :: more => (c :: s) :: more

/-- Reads a path; the error names the text that is none. -/
def parse (path : String) : Except BusError EntityPath :=
  let cs := path.toList
  if cs.isEmpty || cs.any Text.isBlank then .error (.invalidQueueName path)
  else
    match segments cs with
    | [name] => .ok (.queue (String.ofList name))
    | [topic, middle, name] =>
      if topic.isEmpty || name.isEmpty || middle ≠ marker.toList then
        .error (.invalidQueueName path)
      else .ok (.subscription (String.ofList topic) (String.ofList name))
    | _ => .error (.invalidQueueName path)

/-- Whether a path is one that messages can be sent to. -/
def isQueue : EntityPath → Bool
  | .queue _ => true
  | .subscription _ _ => false

end EntityPath

end PeekLock
