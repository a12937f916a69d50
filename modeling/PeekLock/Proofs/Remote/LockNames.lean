import PeekLock.Proofs.Decimal
import PeekLock.Remote.LockName

/-!
# PeekLock.Proofs.Remote.LockNames

The token of a message can be read back: it names its lane, and no two
tokens with different identifiers are the same.
-/

namespace PeekLock

namespace Remote

theorem beforeColon_append {front : List Char} (h : ':' ∉ front) (rest : List Char) :
    beforeColon (front ++ ':' :: rest) = some front := by
  induction front with
  | nil => rfl
  | cons c front ih =>
    rw [List.mem_cons, not_or] at h
    rw [List.cons_append, beforeColon, if_neg (Ne.symm h.1), ih h.2]
    rfl

theorem colon_notMem_toDigits (n : Nat) : ':' ∉ Nat.toDigits 10 n := fun hm => by
  have := Nat.isDigit_of_mem_toDigits (by decide) (by decide) hm
  contradiction

theorem toList_lockToken (supply : Identifier.Supply) (lane used : Nat) :
    (lockToken supply lane used).text.toList =
      Nat.toDigits 10 lane ++ ':' :: (supply.nth used).toList := by
  simp [lockToken, ToString.toString, Nat.repr]

/-- **A token names its lane.** -/
theorem laneOf_lockToken (supply : Identifier.Supply) {lane : Nat} (h : lane ≤ Decimal.maxU64)
    (used : Nat) : laneOf (lockToken supply lane used) = some lane := by
  rw [laneOf, toList_lockToken, beforeColon_append (colon_notMem_toDigits lane), Option.bind_some,
    Decimal.nat?_toDigits h]

/-- Tokens with different identifiers are different, whatever their lanes. -/
theorem lockToken_inj {supply : Identifier.Supply} {lane lane' m n : Nat}
    (h : lockToken supply lane m = lockToken supply lane' n) : m = n := by
  have hl := congrArg (fun t => t.text.toList) h
  simp only [toList_lockToken] at hl
  have hf := congrArg beforeColon hl
  rw [beforeColon_append (colon_notMem_toDigits lane),
    beforeColon_append (colon_notMem_toDigits lane')] at hf
  rw [Option.some.inj hf] at hl
  injection List.append_cancel_left hl with _ hn
  exact supply.nth_inj (String.toList_injective hn)

end Remote

end PeekLock
