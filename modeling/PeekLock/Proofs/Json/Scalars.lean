import PeekLock.Json.Printer
import PeekLock.Json.Scalar
import PeekLock.Proofs.Decimal
import PeekLock.Proofs.Text.Utf8

/-!
# PeekLock.Proofs.Json.Scalars

Numbers and strings that are written as JSON are read back.

An integer of 64 bits is read back where no further digit, point or
exponent follows (`numeral_toDigits`).  A string is read back character by
character: what is written for one is read as one step (`characters_step`),
so every text survives, with all its quotes, backslashes and control
characters (`stringTail_quote`).
-/

namespace PeekLock.Json.Reader

open Text.Utf8 Decimal

theorem toNat_byte {c : Char} (h : c.toNat < 0x80) : (byte c).toNat = c.toNat :=
  toNat_ofNat (Nat.lt_trans h (by decide))

/-! ### Integers -/

section

variable {rest : List UInt8}

/-- Whether a number is over in front of some bytes. -/
def endsNumber (rest : List UInt8) : Bool :=
  rest.head?.all fun b => !(isDigit b || b = 0x2E || isExponentMark b)

theorem toNat_of_isDigit {d : Char} (h : d.isDigit = true) : 0x30 ≤ d.toNat ∧ d.toNat ≤ 0x39 := by
  simpa [Char.isDigit, UInt32.le_iff_toNat_le] using h

theorem isDigit_byte {d : Char} (h : d.isDigit = true) : isDigit (byte d) = true := by
  have hd := toNat_of_isDigit h
  simp only [isDigit, UInt8.le_iff_toNat_le, toNat_byte (c := d) (by omega), Bool.and_eq_true,
    decide_eq_true_eq]
  exact hd

theorem digit_byte {d : Char} (h : d.isDigit = true) : digit (byte d) = digitValue d := by
  have hd := toNat_of_isDigit h
  rw [digit, toNat_byte (by omega)]
  rfl

theorem wholeDigits_of_endsNumber (n : Nat) (h : endsNumber rest = true) :
    wholeDigits n rest = (n, 0, rest) := by
  cases rest with
  | nil => rfl
  | cons b tail =>
    have hb : isDigit b = false := by
      simp only [endsNumber, List.head?_cons, Option.all_some, Bool.not_or, Bool.and_eq_true] at h
      simpa using h.1.1
    simp only [wholeDigits, hb, if_false, Bool.false_eq_true]

/-- Digits are read to their end, as long as they fit. -/
theorem wholeDigits_append {ds : List Char} (hd : ∀ d ∈ ds, d.isDigit = true) {n : Nat}
    (hmax : digitsValue n ds ≤ maxU64) (hr : endsNumber rest = true) :
    wholeDigits n (ds.map byte ++ rest) = (digitsValue n ds, 0, rest) := by
  induction ds generalizing n with
  | nil => exact wholeDigits_of_endsNumber n hr
  | cons d ds ih =>
    have hdigit := hd d List.mem_cons_self
    have hfits : n * 10 + digitValue d ≤ maxU64 := Nat.le_trans (le_digitsValue _ ds) hmax
    rw [List.map_cons, List.cons_append, wholeDigits, if_pos (isDigit_byte hdigit),
      digit_byte hdigit, if_pos hfits]
    exact ih (fun e he => hd e (List.mem_cons_of_mem d he)) hmax

theorem afterWhole_of_endsNumber (negative : Bool) (n : Nat) (h : endsNumber rest = true) :
    afterWhole negative n 0 rest = .ok (wholeNumber negative n, rest) := by
  cases rest with
  | nil => rfl
  | cons b tail =>
    simp only [endsNumber, List.head?_cons, Option.all_some, Bool.not_or, Bool.and_eq_true] at h
    obtain ⟨⟨-, hpoint⟩, hmark⟩ := h
    have hpoint : b ≠ 0x2E := by simpa using hpoint
    have hmark : isExponentMark b = false := by simpa using hmark
    simp only [afterWhole, hpoint, hmark, if_false, if_true, Bool.false_eq_true]

/-- Only zero is written with a zero in front. -/
theorem eq_zero_of_toDigits {n : Nat} {ds : List Char} (h : Nat.toDigits 10 n = '0' :: ds) :
    n = 0 := by
  induction n using Nat.strongRecOn generalizing ds with
  | ind n ih =>
    rw [Nat.toDigits_eq_if (by decide)] at h
    split at h
    · next hlt =>
      have hzero : ∀ n < 10, Nat.digitChar n = '0' → n = 0 := by decide
      exact hzero n hlt (List.cons.inj h).1
    · next hge =>
      cases hq : Nat.toDigits 10 (n / 10) with
      | nil => exact (Nat.toDigits_ne_nil hq).elim
      | cons d more =>
        rw [hq, List.cons_append] at h
        obtain ⟨rfl, -⟩ := List.cons.inj h
        have := ih (n / 10) (by omega) hq
        omega

theorem numeral_zero (negative : Bool) (hr : endsNumber rest = true) :
    numeral negative (byte '0' :: rest) = .ok (wholeNumber negative 0, rest) := by
  have hafter := afterWhole_of_endsNumber negative 0 hr
  cases rest with
  | nil => exact hafter
  | cons b tail =>
    have hb : isDigit b = false := by
      simp only [endsNumber, List.head?_cons, Option.all_some, Bool.not_or, Bool.and_eq_true] at hr
      simpa using hr.1.1
    have hzero : byte '0' = 0x30 := rfl
    simp only [numeral, hzero, hb, if_true, if_false, Bool.false_eq_true]
    exact hafter

/-- The first digit of a number counts like the others. -/
theorem numeral_of_wholeDigits (negative : Bool) {b : UInt8} {tail : List UInt8} {n : Nat}
    (hb : isDigit b = true) (hzero : b ≠ 0x30)
    (hw : wholeDigits 0 (b :: tail) = (n, 0, rest)) :
    numeral negative (b :: tail) = afterWhole negative n 0 rest := by
  have hle : digit b ≤ maxU64 := by
    have := b.toNat_lt
    simp only [digit, maxU64]
    omega
  rw [wholeDigits, if_pos hb, Nat.zero_mul, Nat.zero_add, if_pos hle] at hw
  simp only [numeral, hzero, hb, if_true, if_false, hw]

/-- **Integers**: the digits of a number of 64 bits are read as that number. -/
theorem numeral_toDigits (negative : Bool) {n : Nat} (hn : n ≤ maxU64)
    (hr : endsNumber rest = true) :
    numeral negative ((Nat.toDigits 10 n).map byte ++ rest) =
      .ok (wholeNumber negative n, rest) := by
  have hdigits (d : Char) (hd : d ∈ Nat.toDigits 10 n) : d.isDigit = true :=
    Nat.isDigit_of_mem_toDigits (by decide) (by decide) hd
  have hvalue := digitsValue_toDigits n
  have hwhole := wholeDigits_append hdigits (n := 0) (by rw [hvalue]; exact hn) hr
  rw [hvalue] at hwhole
  cases hds : Nat.toDigits 10 n with
  | nil => exact (Nat.toDigits_ne_nil hds).elim
  | cons d ds =>
    have hdigit : d.isDigit = true := hdigits d (hds ▸ List.mem_cons_self)
    rw [hds] at hwhole
    by_cases hzero : d = '0'
    · subst hzero
      obtain rfl : n = 0 := eq_zero_of_toDigits hds
      obtain rfl : [] = ds := (List.cons.inj hds).2
      exact numeral_zero negative hr
    · rw [List.map_cons, List.cons_append] at hwhole ⊢
      have hne : byte d ≠ 0x30 := fun he => hzero <| by
        have hd := toNat_of_isDigit hdigit
        have hnat := congrArg UInt8.toNat he
        rw [toNat_byte (by omega)] at hnat
        exact Char.toNat_inj.mp hnat
      rw [numeral_of_wholeDigits negative (isDigit_byte hdigit) hne hwhole]
      exact afterWhole_of_endsNumber negative n hr

end

/-! ### Strings -/

section

variable {rest : List UInt8}

theorem hexDigit?_digitChar {n : Nat} (h : n < 16) :
    hexDigit? (byte (Nat.digitChar n)) = some n := by
  have hall : ∀ n < 16, hexDigit? (byte (Nat.digitChar n)) = some n := by decide
  exact hall n h

theorem toNat_digitChar_lt {n : Nat} (h : n < 16) : (Nat.digitChar n).toNat < 0x80 := by
  have hall : ∀ n < 16, (Nat.digitChar n).toNat < 0x80 := by decide
  exact hall n h

/-- An escape of four digits is read as the character of that number. -/
theorem escaped_hex {n : Nat} (h : n < 0x20) :
    escaped (0x75 :: 0x30 :: 0x30 :: byte (Nat.digitChar (n / 16)) ::
      byte (Nat.digitChar (n % 16)) :: rest) = .ok (Char.ofNat n, rest) := by
  have hzero : hexDigit? 0x30 = some 0 := rfl
  have hvalue : ((0 * 16 + 0) * 16 + n / 16) * 16 + n % 16 = n := by omega
  have hhigh := hexDigit?_digitChar (n := n / 16) (by omega)
  have hlow := hexDigit?_digitChar (n := n % 16) (by omega)
  have hread : hexEscape (0x30 :: 0x30 :: byte (Nat.digitChar (n / 16)) ::
      byte (Nat.digitChar (n % 16)) :: rest) = .ok (n, rest) := by
    simp only [hexEscape, hzero, hhigh, hlow, hvalue]
  have hsurrogate : ¬ 0xDC00 ≤ n := by omega
  have hsurrogate' : ¬ 0xD800 ≤ n := by omega
  simp only [escaped, hread]
  simp [hsurrogate, hsurrogate']

/-- A character that is escaped by its letter. -/
theorem characters_escaped {fuel : Nat} {behind : List Char} {bytes : List UInt8} {c : Char}
    (h : escaped bytes = .ok (c, rest)) :
    characters (fuel + 1) none behind (0x5C :: bytes) =
      characters fuel none (c :: behind) rest := by
  simp only [characters, h]
  rfl

/-- A character that stands for itself. -/
theorem characters_plain {fuel : Nat} {behind : List Char} {c : Char} (hc : 0x20 ≤ c.toNat)
    (hquote : c ≠ '"') (hslash : c ≠ '\\') :
    characters (fuel + 1) none behind (String.utf8EncodeChar c ++ rest) =
      characters fuel none (c :: behind) rest := by
  obtain ⟨b, tail, hbytes, hb⟩ := head_utf8EncodeChar c
  have hnext := next_utf8EncodeChar c rest
  have hne {d : Char} (hd : d.toNat < 0x80) (hcd : c ≠ d) : b ≠ byte d := fun he => by
    have hnat := congrArg UInt8.toNat he
    rw [toNat_byte hd] at hnat
    exact hcd (Char.toNat_inj.mp (by omega))
  have hquote : b ≠ 0x22 := hne (d := '"') (by decide) hquote
  have hslash : b ≠ 0x5C := hne (d := '\\') (by decide) hslash
  have hcontrol : ¬ b < 0x20 := by
    rw [UInt8.lt_iff_toNat_lt]
    simp only [UInt8.reduceToNat]
    omega
  rw [hbytes, List.cons_append] at hnext ⊢
  simp only [characters, hquote, hslash, hcontrol, if_false, hnext]

/-- What is written for a character is read as that character. -/
theorem characters_step (fuel : Nat) (behind : List Char) (c : Char) :
    characters (fuel + 1) none behind (encode (escapeChar c) ++ rest) =
      characters fuel none (c :: behind) rest := by
  unfold escapeChar
  split
  case h_8 hquote hslash _ _ _ _ _ =>
    split
    · next hcontrol =>
      have hhigh := toNat_digitChar_lt (n := c.toNat / 16) (by omega)
      have hlow := toNat_digitChar_lt (n := c.toNat % 16) (by omega)
      rw [encode_of_lt (by simp [hhigh, hlow])]
      refine (characters_escaped (escaped_hex hcontrol)).trans ?_
      rw [Char.ofNat_toNat]
      rfl
    · next hcontrol =>
      rw [encode_cons, encode, List.flatMap_nil, List.append_nil]
      exact characters_plain (Nat.le_of_not_lt hcontrol) hquote hslash
  all_goals exact characters_escaped rfl

theorem escapeChar_ne_nil (c : Char) : escapeChar c ≠ [] := by
  unfold escapeChar
  split
  case h_8 => split <;> exact List.cons_ne_nil _ _
  all_goals exact List.cons_ne_nil _ _

theorem length_le_length_escaped (cs : List Char) :
    cs.length ≤ (encode (cs.flatMap escapeChar)).length := by
  refine Nat.le_trans ?_ (length_le_length_encode _)
  rw [List.length_flatMap]
  induction cs with
  | nil => exact Nat.le_refl _
  | cons c cs ih =>
    have hpos := List.length_pos_iff.mpr (escapeChar_ne_nil c)
    rw [List.map_cons, List.sum_cons, List.length_cons]
    omega

/-- The characters of a string are read up to its closing quote. -/
theorem characters_escapes (cs : List Char) {fuel : Nat} (hf : cs.length < fuel)
    (behind : List Char) :
    characters fuel none behind (encode (cs.flatMap escapeChar) ++ 0x22 :: rest) =
      .ok (String.ofList (behind.reverse ++ cs), rest) := by
  induction cs generalizing fuel behind with
  | nil =>
    obtain ⟨fuel, rfl⟩ := Nat.exists_eq_succ_of_ne_zero (Nat.ne_of_gt hf)
    rw [List.append_nil]
    rfl
  | cons c cs ih =>
    obtain ⟨fuel, rfl⟩ := Nat.exists_eq_succ_of_ne_zero (Nat.ne_of_gt (Nat.zero_lt_of_lt hf))
    rw [List.flatMap_cons, encode_append, List.append_assoc, characters_step,
      ih (Nat.lt_of_succ_lt_succ hf), List.reverse_cons, List.append_assoc]
    rfl

/-- **Strings**: what is written for a text is read as that text. -/
theorem stringTail_quote (s : String) :
    stringTail (encode (s.toList.flatMap escapeChar) ++ 0x22 :: rest) = .ok (s, rest) := by
  have hle := length_le_length_escaped s.toList
  rw [stringTail, characters_escapes _ (by rw [List.length_append]; omega)]
  rw [List.reverse_nil, List.nil_append, String.ofList_toList]

end

end PeekLock.Json.Reader
