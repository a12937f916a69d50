import PeekLock.Decimal.Shortest

/-!
# PeekLock.Decimal.Rounded

Exact rounding of fractions.

`roundDiv` rounds a quotient of natural numbers to the nearest whole
number, a half to the even neighbour.  With it a finite double is written
with a fixed number of places (`fixed`), and scaled and rounded to a
whole number (`scaleRound`), both from the exact value that its bits
stand for.
-/

namespace PeekLock.Decimal

/-- `num / den` to the nearest whole number; a half goes to the even one. -/
def roundDiv (num den : Nat) : Nat :=
  let q := num / den
  let r := num % den
  if 2 * r < den then q
  else if den < 2 * r then q + 1
  else if q % 2 = 0 then q else q + 1

/-- The rounded quotient is at most half a unit away from the exact one. -/
theorem roundDiv_within (num den : Nat) (h : 0 < den) :
    2 * num ≤ (2 * roundDiv num den + 1) * den ∧ (2 * roundDiv num den) * den ≤ 2 * num + den := by
  have hq : den * (num / den) + num % den = num := Nat.div_add_mod num den
  have hr : num % den < den := Nat.mod_lt num h
  have e1 : den * (num / den) = (num / den) * den := Nat.mul_comm _ _
  unfold roundDiv
  simp only
  split
  · constructor
    · rw [Nat.add_mul, Nat.mul_assoc]; omega
    · rw [Nat.mul_assoc]; omega
  · split
    · constructor
      · rw [Nat.add_mul, Nat.mul_assoc, Nat.add_mul]; omega
      · rw [Nat.mul_assoc, Nat.add_mul]; omega
    · split
      · constructor
        · rw [Nat.add_mul, Nat.mul_assoc]; omega
        · rw [Nat.mul_assoc]; omega
      · constructor
        · rw [Nat.add_mul, Nat.mul_assoc, Nat.add_mul]; omega
        · rw [Nat.mul_assoc, Nat.add_mul]; omega

/-- A finite double's magnitude times `scale`, rounded to a whole number. -/
def scaleRound (scale : Nat) (x : Float) : Nat :=
  let b := Binary.ofBits x.toBits
  let (num, den) := scaled b.mantissa 2 b.exponent
  roundDiv (num * scale) den

/-- A double to the nearest whole number, a half away from zero, and not beyond
the given bounds; what is no number counts as zero. -/
def clampRound (low high : Int) (x : Float) : Int :=
  if x.isNaN then 0
  else
    let b := Binary.ofBits x.toBits
    let (num, den) := scaled b.mantissa 2 b.exponent
    let magnitude : Int := ((2 * num + den) / (2 * den) : Nat)
    max low (min high (if isNegative x then -magnitude else magnitude))

/-- A finite double with the given number of places behind the point. -/
def fixed (places : Nat) (x : Float) : String :=
  let n := scaleRound (Nat.pow 10 places) x
  let whole := n / Nat.pow 10 places
  let fraction := n % Nat.pow 10 places
  let digits := toString fraction
  let zeros := String.ofList (List.replicate (places - digits.length) '0')
  let sign := if isNegative x then "-" else ""
  if places = 0 then sign ++ toString whole
  else sign ++ toString whole ++ "." ++ zeros ++ digits

end PeekLock.Decimal
