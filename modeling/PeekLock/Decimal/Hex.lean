import PeekLock.Decimal.Integer

/-!
# PeekLock.Decimal.Hex

Hexadecimal digits can be read back: zeros in front do not change their
value.
-/

namespace PeekLock.Decimal

/-- The value of a hexadecimal digit. -/
def hexDigitValue (c : Char) : Nat := ((List.range 16).find? (Nat.digitChar · = c)).getD 0

/-- The value of a run of hexadecimal digits, continuing `value`. -/
def hexValue (value : Nat) (digits : List Char) : Nat :=
  digits.foldl (fun n c => 16 * n + hexDigitValue c) value

theorem hexDigitValue_digitChar : ∀ d < 16, hexDigitValue (Nat.digitChar d) = d := by decide

theorem hexValue_append (value : Nat) (front back : List Char) :
    hexValue value (front ++ back) = hexValue (hexValue value front) back :=
  List.foldl_append

/-- **Reading back**: the hexadecimal digits of a number have its value. -/
theorem hexValue_toDigits (n : Nat) : hexValue 0 (Nat.toDigits 16 n) = n := by
  induction n using Nat.strongRecOn with
  | ind n ih =>
    by_cases hn : n < 16
    · rw [Nat.toDigits_of_lt_base hn]
      simp [hexValue, hexDigitValue_digitChar n hn]
    · have hd : hexDigitValue (Nat.digitChar (n % 16)) = n % 16 :=
        hexDigitValue_digitChar _ (Nat.mod_lt n (by decide))
      rw [Nat.toDigits_of_base_le (by decide) (by omega), hexValue_append, ih (n / 16) (by omega)]
      simp only [hexValue, List.foldl_cons, List.foldl_nil, hd]
      omega

theorem hexValue_zeros (k : Nat) (digits : List Char) :
    hexValue 0 (List.replicate k '0' ++ digits) = hexValue 0 digits := by
  induction k with
  | zero => rfl
  | succ k ih =>
    rw [List.replicate_succ, List.cons_append, ← ih]
    rfl

/-- The padded digits of a number determine it. -/
theorem paddedHex_inj {width m n : Nat} (h : paddedHex width m = paddedHex width n) : m = n := by
  have hm := hexValue_toDigits m
  have hn := hexValue_toDigits n
  rw [← hexValue_zeros (width - (Nat.toDigits 16 m).length)] at hm
  rw [← hexValue_zeros (width - (Nat.toDigits 16 n).length)] at hn
  have hl := String.ofList_injective h
  rw [hl] at hm
  exact hm.symm.trans hn

end PeekLock.Decimal
