import PeekLock.Decimal.Integer
import PeekLock.Identifier
import PeekLock.Message

/-!
# PeekLock.Remote.LockName

Lock tokens of the remote bus.

A receiver of the remote bus hands messages out on several lanes, and the
token of a message names the lane it came on: the number of the lane, a
colon, and a generated identifier.
-/

namespace PeekLock.Remote

/-- The token for a message on a lane. -/
def lockToken (supply : Identifier.Supply) (lane used : Nat) : LockToken :=
  ⟨toString lane ++ ":" ++ supply.nth used⟩

/-- The text in front of the first colon, if there is one. -/
def beforeColon : List Char → Option (List Char)
  | [] => none
  | c :: rest => if c = ':' then some [] else (beforeColon rest).map (c :: ·)

/-- The lane that a token names. -/
def laneOf (token : LockToken) : Option Nat :=
  (beforeColon token.text.toList).bind (Decimal.nat? Decimal.maxU64)

end PeekLock.Remote
