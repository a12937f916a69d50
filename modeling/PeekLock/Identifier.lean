import PeekLock.Decimal.Hex

/-!
# PeekLock.Identifier

Generated identifiers.

Message ids and lock tokens that nobody chose are drawn from a supply that
never repeats.  A bus can be given any; the one that it has otherwise
counts: its `n`-th identifier is a text of 8, 4, 4, 4 and 12 hexadecimal
digits, the last group being `n` itself.
-/

namespace PeekLock.Identifier

/-- Identifiers, one after the other, of which no two are the same. -/
structure Supply where
  /-- The `n`-th identifier. -/
  nth : Nat → String
  nth_inj : ∀ {m n : Nat}, nth m = nth n → m = n

/-- The groups that all identifiers share that are counted. -/
def stem : String := "5ec7a9d2-3b1f-4c68-9e04-"

/-- **Counted identifiers never repeat.** -/
theorem stem_append_inj {m n : Nat}
    (h : stem ++ Decimal.paddedHex 12 m = stem ++ Decimal.paddedHex 12 n) : m = n := by
  have hl := congrArg String.toList h
  simp only [String.toList_append] at hl
  have hp : (Decimal.paddedHex 12 m).toList = (Decimal.paddedHex 12 n).toList :=
    List.append_cancel_left hl
  exact Decimal.paddedHex_inj (String.toList_injective hp)

/-- The supply that counts. -/
def counting : Supply where
  nth n := stem ++ Decimal.paddedHex 12 n
  nth_inj := stem_append_inj

instance : Inhabited Supply := ⟨counting⟩

end PeekLock.Identifier
