import Mathlib.Data.Char
import PeekLock.Text.Utf8

/-!
# PeekLock.Proofs.Text.Utf8

Text that is written as UTF-8 is read back.

The bytes of a character start with that character, whatever is behind them
(`next_utf8EncodeChar`).  A character of one byte is that byte, and all bytes
of the others lie beyond ASCII, so a reader that looks for ASCII bytes finds
none inside a character.
-/

namespace PeekLock.Text.Utf8

/-! ### Characters of one to four bytes -/

section

variable {a b c d : UInt8} (rest : List UInt8)

theorem isContinuation_iff : isContinuation b = true ↔ 0x80 ≤ b.toNat ∧ b.toNat ≤ 0xBF := by
  simp [isContinuation, UInt8.le_iff_toNat_le]

theorem secondOfThree_iff : secondOfThree a b = true ↔ 0x80 ≤ b.toNat ∧ b.toNat ≤ 0xBF ∧
    (a.toNat = 0xE0 → 0xA0 ≤ b.toNat) ∧ (a.toNat = 0xED → b.toNat ≤ 0x9F) := by
  simp only [secondOfThree, isContinuation, UInt8.le_iff_toNat_le, ← UInt8.toNat_inj,
    Bool.and_eq_true, decide_eq_true_eq, apply_ite (· = true), UInt8.reduceToNat]
  grind

theorem secondOfFour_iff : secondOfFour a b = true ↔ 0x80 ≤ b.toNat ∧ b.toNat ≤ 0xBF ∧
    (a.toNat = 0xF0 → 0x90 ≤ b.toNat) ∧ (a.toNat = 0xF4 → b.toNat ≤ 0x8F) := by
  simp only [secondOfFour, isContinuation, UInt8.le_iff_toNat_le, ← UInt8.toNat_inj,
    Bool.and_eq_true, decide_eq_true_eq, apply_ite (· = true), UInt8.reduceToNat]
  grind

theorem next_one (ha : a.toNat < 0x80) : next (a :: rest) = .scalar (Char.ofNat a.toNat) rest := by
  simp only [next, UInt8.lt_iff_toNat_lt]
  exact if_pos ha

theorem next_two (ha : 0xC2 ≤ a.toNat) (ha' : a.toNat ≤ 0xDF) (hb : isContinuation b = true) :
    next (a :: b :: rest) = .scalar (Char.ofNat (a.toNat % 32 * 64 + payload b)) rest := by
  simp only [next, UInt8.lt_iff_toNat_lt, UInt8.le_iff_toNat_le, UInt8.reduceToNat, hb]
  rw [if_neg (by omega), if_pos (by simp [ha, ha']), if_pos trivial]

theorem next_three (ha : 0xE0 ≤ a.toNat) (ha' : a.toNat ≤ 0xEF) (hb : secondOfThree a b = true)
    (hc : isContinuation c = true) :
    next (a :: b :: c :: rest) =
      .scalar (Char.ofNat (a.toNat % 16 * 4096 + payload b * 64 + payload c)) rest := by
  simp only [next, UInt8.lt_iff_toNat_lt, UInt8.le_iff_toNat_le, UInt8.reduceToNat, hb, hc]
  rw [if_neg (by omega), if_neg (by simp; omega), if_pos (by simp [ha, ha']), if_pos trivial,
    if_pos trivial]

theorem next_four (ha : 0xF0 ≤ a.toNat) (ha' : a.toNat ≤ 0xF4) (hb : secondOfFour a b = true)
    (hc : isContinuation c = true) (hd : isContinuation d = true) :
    next (a :: b :: c :: d :: rest) =
      .scalar (Char.ofNat (a.toNat % 8 * 262144 + payload b * 4096 + payload c * 64 + payload d))
        rest := by
  simp only [next, UInt8.lt_iff_toNat_lt, UInt8.le_iff_toNat_le, UInt8.reduceToNat, hb, hc, hd]
  rw [if_neg (by omega), if_neg (by simp; omega), if_neg (by simp; omega),
    if_pos (by simp [ha, ha']), if_pos trivial, if_pos trivial, if_pos trivial]

end

/-! ### Reading what was written -/

theorem toNat_ofNat {n : Nat} (h : n < 0x100) : (UInt8.ofNat n).toNat = n :=
  UInt8.toNat_ofNat_of_lt' h

/-- A character is no surrogate, and none lies beyond the last plane. -/
theorem toNat_ranges (c : Char) : c.toNat < 0xD800 ∨ 0xDFFF < c.toNat ∧ c.toNat < 0x110000 :=
  c.valid

/-- The bytes of a character start with that character. -/
theorem next_utf8EncodeChar (c : Char) (rest : List UInt8) :
    next (String.utf8EncodeChar c ++ rest) = .scalar c rest := by
  have hranges := toNat_ranges c
  -- what is read is the number of the character, put together from its bytes
  have scalar {n : Nat} (h : n = c.toNat) : Next.scalar (Char.ofNat n) rest = .scalar c rest := by
    rw [h, Char.ofNat_toNat]
  have hv : c.val.toNat = c.toNat := rfl
  simp only [String.utf8EncodeChar, hv]
  split
  · next h =>
    refine (next_one rest (by rw [toNat_ofNat (by omega)]; omega)).trans (scalar ?_)
    exact toNat_ofNat (by omega)
  split
  · next h h' =>
    refine (next_two rest ?_ ?_ ?_).trans (scalar ?_)
    · rw [toNat_ofNat (by omega)]; omega
    · rw [toNat_ofNat (by omega)]; omega
    · rw [isContinuation_iff, toNat_ofNat (by omega)]; omega
    · rw [payload, toNat_ofNat (by omega), toNat_ofNat (by omega)]; omega
  split
  · next h h' h'' =>
    refine (next_three rest ?_ ?_ ?_ ?_).trans (scalar ?_)
    · rw [toNat_ofNat (by omega)]; omega
    · rw [toNat_ofNat (by omega)]; omega
    · rw [secondOfThree_iff, toNat_ofNat (by omega), toNat_ofNat (by omega)]; omega
    · rw [isContinuation_iff, toNat_ofNat (by omega)]; omega
    · rw [payload, payload, toNat_ofNat (by omega), toNat_ofNat (by omega), toNat_ofNat (by omega)]
      omega
  · next h h' h'' =>
    refine (next_four rest ?_ ?_ ?_ ?_ ?_).trans (scalar ?_)
    · rw [toNat_ofNat (by omega)]; omega
    · rw [toNat_ofNat (by omega)]; omega
    · rw [secondOfFour_iff, toNat_ofNat (by omega), toNat_ofNat (by omega)]; omega
    · rw [isContinuation_iff, toNat_ofNat (by omega)]; omega
    · rw [isContinuation_iff, toNat_ofNat (by omega)]; omega
    · rw [payload, payload, payload, toNat_ofNat (by omega), toNat_ofNat (by omega),
        toNat_ofNat (by omega), toNat_ofNat (by omega)]
      omega

/-! ### Bytes of texts -/

theorem encode_cons (c : Char) (cs : List Char) :
    encode (c :: cs) = String.utf8EncodeChar c ++ encode cs :=
  List.flatMap_cons

theorem encode_append (cs ds : List Char) : encode (cs ++ ds) = encode cs ++ encode ds :=
  List.flatMap_append

theorem utf8EncodeChar_of_lt {c : Char} (h : c.toNat < 0x80) :
    String.utf8EncodeChar c = [UInt8.ofNat c.toNat] := by
  have hv : c.val.toNat ≤ 127 := Nat.le_of_lt_succ h
  simp only [String.utf8EncodeChar, hv, if_true]
  rfl

/-- The bytes of an ASCII text are its characters. -/
theorem encode_of_lt {cs : List Char} (h : ∀ c ∈ cs, c.toNat < 0x80) :
    encode cs = cs.map fun c => UInt8.ofNat c.toNat := by
  induction cs with
  | nil => rfl
  | cons c cs ih =>
    rw [encode_cons, utf8EncodeChar_of_lt (h c List.mem_cons_self),
      ih fun d hd => h d (List.mem_cons_of_mem c hd)]
    rfl

/-- The first byte of a character is its number, or both lie beyond ASCII. -/
theorem head_utf8EncodeChar (c : Char) : ∃ b tail, String.utf8EncodeChar c = b :: tail ∧
    (b.toNat = c.toNat ∨ 0x80 ≤ b.toNat ∧ 0x80 ≤ c.toNat) := by
  have hranges := toNat_ranges c
  have hv : c.val.toNat = c.toNat := rfl
  simp only [String.utf8EncodeChar, hv]
  split
  · exact ⟨_, _, rfl, .inl (toNat_ofNat (by omega))⟩
  split
  · refine ⟨_, _, rfl, .inr ?_⟩
    rw [toNat_ofNat (by omega)]
    omega
  split
  · refine ⟨_, _, rfl, .inr ?_⟩
    rw [toNat_ofNat (by omega)]
    omega
  · refine ⟨_, _, rfl, .inr ?_⟩
    rw [toNat_ofNat (by omega)]
    omega

theorem length_le_length_encode (cs : List Char) : cs.length ≤ (encode cs).length := by
  induction cs with
  | nil => exact Nat.le_refl _
  | cons c cs ih =>
    obtain ⟨b, tail, hc, -⟩ := head_utf8EncodeChar c
    rw [encode_cons, hc, List.length_append, List.length_cons, List.length_cons]
    omega

end PeekLock.Text.Utf8
