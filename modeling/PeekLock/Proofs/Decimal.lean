import PeekLock.Decimal.Double

/-!
# PeekLock.Proofs.Decimal

Decimal digits are read back.

A run of digits has a value that further digits only add to, and the
digits of a number have that number as their value.  A text is no number at
all if it starts with anything but a sign, a digit or a point, the three
special values aside.
-/

namespace PeekLock.Decimal

/-- Further digits never make a number smaller. -/
theorem le_digitsValue (value : Nat) (digits : List Char) : value ≤ digitsValue value digits := by
  induction digits generalizing value with
  | nil => exact Nat.le_refl _
  | cons d rest ih =>
    have hle := ih (value * 10 + digitValue d)
    rw [digitsValue, List.foldl_cons]
    exact Nat.le_trans (by omega) hle

theorem digitsValue_toDigits (n : Nat) : digitsValue 0 (Nat.toDigits 10 n) = n := by
  have hstep : (fun value c => value * 10 + digitValue c) =
      fun value c => 10 * value + (c.toNat - '0'.toNat) := by
    funext value c
    rw [Nat.mul_comm]
    rfl
  rw [digitsValue, hstep, ← Nat.ofDigitChars_eq_foldl]
  exact Nat.ofDigitChars_toDigits (by decide) (by decide)

/-- **Reading back**: the decimal digits of a number have its value. -/
theorem digits?_toDigits (n : Nat) : digits? (Nat.toDigits 10 n) = some n := by
  have hne : (Nat.toDigits 10 n).isEmpty = false :=
    Bool.eq_false_iff.mpr fun he => Nat.toDigits_ne_nil (List.isEmpty_iff.mp he)
  have hall : (Nat.toDigits 10 n).all Char.isDigit = true :=
    List.all_eq_true.mpr fun c hc => Nat.isDigit_of_mem_toDigits (by decide) (by decide) hc
  rw [digits?, hne, hall, digitsValue_toDigits]
  rfl

theorem nat?_toDigits {limit n : Nat} (h : n ≤ limit) :
    nat? limit (Nat.toDigits 10 n) = some n := by
  have hplus (rest : List Char) : Nat.toDigits 10 n ≠ '+' :: rest := fun hc => by
    have := Nat.isDigit_of_mem_toDigits (by decide) (by decide) (hc ▸ List.mem_cons_self)
    contradiction
  rw [nat?, digits?_toDigits]
  · exact Option.filter_eq_some_iff.mpr ⟨rfl, decide_eq_true h⟩
  · exact hplus

/-! ## Signs -/

/-- How an integer is written. -/
theorem toList_toString (n : Int) : (toString n).toList =
    if n < 0 then '-' :: Nat.toDigits 10 n.natAbs else Nat.toDigits 10 n.natAbs := by
  rw [Int.toString_eq_repr, Int.repr_eq_if]
  split
  · next h =>
    rw [if_neg (by omega), Nat.toList_repr, ← Int.natAbs_of_nonneg h, Int.toNat_natCast,
      Int.natAbs_natCast]
  · next h =>
    have habs : (-n).toNat = n.natAbs := by omega
    rw [if_pos (by omega), String.toList_append, Nat.toList_repr, habs]
    rfl

/-- A number without a sign. -/
theorem int?_of_digits {limit : Nat} {cs : List Char} (hminus : ∀ rest, cs ≠ '-' :: rest)
    (hplus : ∀ rest, cs ≠ '+' :: rest) : int? limit cs =
      ((digits? cs).map fun n => (n : Int)).filter fun i =>
        -(limit : Int) - 1 ≤ i && i ≤ limit := by
  unfold int?
  split
  · next rest => exact absurd rfl (hminus rest)
  · next rest => exact absurd rfl (hplus rest)
  · rfl

/-- **Reading back**: what is written for an integer within the bounds has its value. -/
theorem int?_toString {limit : Nat} {n : Int} (hmin : -(limit : Int) - 1 ≤ n) (hmax : n ≤ limit) :
    int? limit (toString n).toList = some n := by
  have hbounds : (decide (-(limit : Int) - 1 ≤ n) && decide (n ≤ limit)) = true := by
    simp [hmin, hmax]
  rw [toList_toString]
  split
  · next hneg =>
    have habs : -(n.natAbs : Int) = n := by omega
    simp only [int?, digits?_toDigits]
    show (some (-(n.natAbs : Int))).filter _ = some n
    rw [habs]
    exact Option.filter_eq_some_iff.mpr ⟨rfl, hbounds⟩
  · next hpos =>
    have hsign {c : Char} (hc : c.isDigit = false) (rest : List Char) :
        Nat.toDigits 10 n.natAbs ≠ c :: rest := fun h => by
      have := Nat.isDigit_of_mem_toDigits (by decide) (by decide) (h ▸ List.mem_cons_self)
      rw [hc] at this
      contradiction
    have habs : (n.natAbs : Int) = n := by omega
    rw [int?_of_digits (hsign rfl) (hsign rfl), digits?_toDigits]
    show (some (n.natAbs : Int)).filter _ = some n
    rw [habs]
    exact Option.filter_eq_some_iff.mpr ⟨rfl, hbounds⟩

/-! ## Texts that are no numbers -/

/-- The digits, the signs and the point come before all letters. -/
theorem ne_of_letter {c d : Char} (h : 65 ≤ c.toNat) (hd : d.toNat < 65) : c ≠ d := fun he => by
  subst he
  omega

theorem isDigit_eq_false_of_letter {c : Char} (h : 65 ≤ c.toNat) : c.isDigit = false := by
  have hlt : ¬ c.val ≤ 57 := by
    rw [UInt32.le_iff_toNat_le]
    exact fun hle => absurd (Nat.le_trans h hle) (by decide)
  simp [Char.isDigit, hlt]

/-- A text that starts with a letter is no integer. -/
theorem int?_eq_none_of_letter {limit : Nat} {c : Char} (cs : List Char) (h : 65 ≤ c.toNat) :
    int? limit (c :: cs) = none := by
  have hdigits : digits? (c :: cs) = none := by
    simp [digits?, isDigit_eq_false_of_letter h]
  have hsign {d : Char} (hd : d.toNat < 65) (rest : List Char) : c :: cs ≠ d :: rest :=
    fun he => ne_of_letter h hd (List.cons.inj he).1
  rw [int?_of_digits (hsign (by decide)) (hsign (by decide)), hdigits]
  rfl

/-- Nor is it a double, if it does not have the length of a special value. -/
theorem double?_eq_none_of_letter {c : Char} {cs : List Char} (h : 65 ≤ c.toNat)
    (hshort : (c :: cs).length ≠ 3) (hlong : (c :: cs).length ≠ 8) :
    double? (c :: cs) = none := by
  have hword {word : String} (hl : (c :: cs).length ≠ word.toList.length) :
      String.ofList ((c :: cs).map lowerLetter) ≠ word := fun he => by
    refine hl ?_
    rw [← he, String.toList_ofList, List.length_map]
  have hinf : String.ofList ((c :: cs).map lowerLetter) ≠ "inf" := hword hshort
  have hinfinity : String.ofList ((c :: cs).map lowerLetter) ≠ "infinity" := hword hlong
  have hnan : String.ofList ((c :: cs).map lowerLetter) ≠ "nan" := hword hshort
  have hunsigned : unsigned? (c :: cs) = none := by
    have hpoint : c ≠ '.' := ne_of_letter h (by decide)
    simp [unsigned?, isDigit_eq_false_of_letter h, hpoint]
  unfold double?
  split
  · next rest he => exact absurd (List.cons.inj he).1 (ne_of_letter h (by decide))
  · next rest he => exact absurd (List.cons.inj he).1 (ne_of_letter h (by decide))
  · simp only [magnitude?, hinf, hinfinity, hnan, decide_false, Bool.or_self, if_false,
      Bool.false_eq_true, hunsigned]

end PeekLock.Decimal
