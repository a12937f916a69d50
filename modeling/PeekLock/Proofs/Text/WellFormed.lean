import PeekLock.Proofs.Text.Utf8

/-!
# PeekLock.Proofs.Text.WellFormed

Which bytes are UTF-8.

`WellFormed` says it by the table of the standard: a text is one sequence of
one to four bytes after the other, and the table gives the bytes that each
may have.  Overlong forms, surrogates and numbers beyond the last plane are
not in it, nor is a sequence that breaks off.

Such bytes are the bytes of some text, and of one only (`wellFormed_iff`).
The reader that replaces broken pieces leaves them as they are, and in all
others there is something that it replaces (`encode_decodeLossy_iff`,
`replacement_mem_decodeLossy`).
-/

namespace PeekLock.Text.Utf8

/-! ### The table -/

/-- A byte that continues a sequence. -/
def Trails (b : UInt8) : Prop := 0x80 ≤ b.toNat ∧ b.toNat ≤ 0xBF

/-- The sequences of bytes that stand for one character. -/
inductive Sequence : List UInt8 → Prop where
  | one {a : UInt8} (ha : a.toNat ≤ 0x7F) : Sequence [a]
  | two {a b : UInt8} (ha : 0xC2 ≤ a.toNat) (ha' : a.toNat ≤ 0xDF) (hb : Trails b) :
    Sequence [a, b]
  | three {a b c : UInt8} (ha : 0xE0 ≤ a.toNat) (ha' : a.toNat ≤ 0xEF) (hb : Trails b)
    (hc : Trails c) (overlong : a.toNat = 0xE0 → 0xA0 ≤ b.toNat)
    (surrogate : a.toNat = 0xED → b.toNat ≤ 0x9F) : Sequence [a, b, c]
  | four {a b c d : UInt8} (ha : 0xF0 ≤ a.toNat) (ha' : a.toNat ≤ 0xF4) (hb : Trails b)
    (hc : Trails c) (hd : Trails d) (overlong : a.toNat = 0xF0 → 0x90 ≤ b.toNat)
    (beyond : a.toNat = 0xF4 → b.toNat ≤ 0x8F) : Sequence [a, b, c, d]

/-- Bytes that are one sequence after the other. -/
inductive WellFormed : List UInt8 → Prop where
  | nil : WellFormed []
  | append {s rest : List UInt8} (hs : Sequence s) (hrest : WellFormed rest) :
    WellFormed (s ++ rest)

/-! ### Sequences and characters -/

section

variable {s rest bytes : List UInt8} {c : Char}

theorem toNat_ofNat_of_isValidChar {n : Nat} (h : n.isValidChar) : (Char.ofNat n).toNat = n := by
  rw [Char.ofNat, dif_pos h]
  rfl

theorem ofNat_eq {n : Nat} {b : UInt8} (h : n = b.toNat) : UInt8.ofNat n = b := by
  rw [h, UInt8.ofNat_toNat]

/-- The bytes of a character are a sequence. -/
theorem sequence_utf8EncodeChar (c : Char) : Sequence (String.utf8EncodeChar c) := by
  have hranges := toNat_ranges c
  have hv : c.val.toNat = c.toNat := rfl
  have trails {n : Nat} (h : n < 64) : Trails (UInt8.ofNat (n + 128)) := by
    rw [Trails, toNat_ofNat (by omega)]
    omega
  have hlow (n : Nat) : n % 64 < 64 := Nat.mod_lt n (by decide)
  simp only [String.utf8EncodeChar, hv]
  split
  · next h => exact .one (by rw [toNat_ofNat (by omega)]; omega)
  split
  · next h =>
    refine .two ?_ ?_ (trails (hlow _))
    · rw [toNat_ofNat (by omega)]; omega
    · rw [toNat_ofNat (by omega)]; omega
  split
  · next h =>
    refine .three ?_ ?_ (trails (hlow _)) (trails (hlow _)) ?_ ?_
    · rw [toNat_ofNat (by omega)]; omega
    · rw [toNat_ofNat (by omega)]; omega
    · rw [toNat_ofNat (by omega), toNat_ofNat (by omega)]; omega
    · rw [toNat_ofNat (by omega), toNat_ofNat (by omega)]; omega
  · next h =>
    refine .four ?_ ?_ (trails (hlow _)) (trails (hlow _)) (trails (hlow _)) ?_ ?_
    · rw [toNat_ofNat (by omega)]; omega
    · rw [toNat_ofNat (by omega)]; omega
    · rw [toNat_ofNat (by omega), toNat_ofNat (by omega)]; omega
    · rw [toNat_ofNat (by omega), toNat_ofNat (by omega)]; omega

/-- A sequence is the bytes of the character whose number its payload bits make. -/
theorem Sequence.exists_char (h : Sequence s) : ∃ c, s = String.utf8EncodeChar c := by
  cases h with
  | @one a ha =>
    refine ⟨Char.ofNat a.toNat, ?_⟩
    have hn := toNat_ofNat_of_isValidChar (n := a.toNat) (.inl (by omega))
    have hv : (Char.ofNat a.toNat).val.toNat = a.toNat := hn
    simp only [String.utf8EncodeChar, hv]
    rw [if_pos ha, UInt8.ofNat_toNat]
  | @two a b ha ha' hb =>
    obtain ⟨hb, hb'⟩ := hb
    generalize hm : a.toNat % 32 * 64 + b.toNat % 64 = n
    have hn : n.isValidChar := .inl (by omega)
    have hv : (Char.ofNat n).val.toNat = n := toNat_ofNat_of_isValidChar hn
    refine ⟨Char.ofNat n, ?_⟩
    simp only [String.utf8EncodeChar, hv]
    rw [if_neg (by omega), if_pos (by omega), ofNat_eq (b := a) (by omega),
      ofNat_eq (b := b) (by omega)]
  | @three a b c ha ha' hb hc overlong surrogate =>
    obtain ⟨hb, hb'⟩ := hb
    obtain ⟨hc, hc'⟩ := hc
    generalize hm : a.toNat % 16 * 4096 + b.toNat % 64 * 64 + c.toNat % 64 = n
    have hn : n.isValidChar := by
      simp only [Nat.isValidChar]
      omega
    have hv : (Char.ofNat n).val.toNat = n := toNat_ofNat_of_isValidChar hn
    refine ⟨Char.ofNat n, ?_⟩
    simp only [String.utf8EncodeChar, hv]
    rw [if_neg (by omega), if_neg (by omega), if_pos (by omega), ofNat_eq (b := a) (by omega),
      ofNat_eq (b := b) (by omega), ofNat_eq (b := c) (by omega)]
  | @four a b c d ha ha' hb hc hd overlong beyond =>
    obtain ⟨hb, hb'⟩ := hb
    obtain ⟨hc, hc'⟩ := hc
    obtain ⟨hd, hd'⟩ := hd
    generalize hm : a.toNat % 8 * 262144 + b.toNat % 64 * 4096 + c.toNat % 64 * 64 +
      d.toNat % 64 = n
    have hn : n.isValidChar := .inr (by omega)
    have hv : (Char.ofNat n).val.toNat = n := toNat_ofNat_of_isValidChar hn
    refine ⟨Char.ofNat n, ?_⟩
    simp only [String.utf8EncodeChar, hv]
    rw [if_neg (by omega), if_neg (by omega), if_neg (by omega), ofNat_eq (b := a) (by omega),
      ofNat_eq (b := b) (by omega), ofNat_eq (b := c) (by omega), ofNat_eq (b := d) (by omega)]

/-- **What is well-formed**: the bytes of the texts, and nothing else. -/
theorem wellFormed_iff : WellFormed bytes ↔ ∃ cs, encode cs = bytes := by
  constructor
  · intro h
    induction h with
    | nil => exact ⟨[], rfl⟩
    | append hs _ ih =>
      obtain ⟨c, rfl⟩ := hs.exists_char
      obtain ⟨cs, rfl⟩ := ih
      exact ⟨c :: cs, encode_cons c cs⟩
  · rintro ⟨cs, rfl⟩
    induction cs with
    | nil => exact .nil
    | cons c cs ih =>
      rw [encode_cons]
      exact .append (sequence_utf8EncodeChar c) ih

/-! ### The reader that replaces -/

theorem decodeLossy_of_scalar {a : UInt8} (h : next (a :: bytes) = .scalar c rest) :
    decodeLossy (a :: bytes) = c :: decodeLossy rest := by
  rw [decodeLossy]
  split <;> simp_all

theorem decodeLossy_of_broken {a : UInt8} (h : next (a :: bytes) = .broken rest) :
    decodeLossy (a :: bytes) = '\uFFFD' :: decodeLossy rest := by
  rw [decodeLossy]
  split <;> simp_all

/-- **Reading back**: no text has anything replaced in it. -/
theorem decodeLossy_encode (cs : List Char) : decodeLossy (encode cs) = cs := by
  induction cs with
  | nil => rw [encode, List.flatMap_nil, decodeLossy]
  | cons c cs ih =>
    obtain ⟨a, tail, hc, -⟩ := head_utf8EncodeChar c
    have hnext := next_utf8EncodeChar c (encode cs)
    rw [hc, List.cons_append] at hnext
    rw [encode_cons, hc, List.cons_append, decodeLossy_of_scalar hnext, ih]

theorem toNat_bounds {low high a : UInt8} (h : (decide (low ≤ a) && decide (a ≤ high)) = true) :
    low.toNat ≤ a.toNat ∧ a.toNat ≤ high.toNat := by
  simpa [UInt8.le_iff_toNat_le] using h

/-- What is split off as a character is a sequence. -/
theorem sequence_of_next (h : next bytes = .scalar c rest) :
    ∃ s, Sequence s ∧ bytes = s ++ rest := by
  unfold next at h
  split at h
  · contradiction
  next a tail =>
  split at h
  · next ha =>
    cases h
    exact ⟨[a], .one (Nat.le_of_lt_succ (UInt8.lt_iff_toNat_lt.mp ha)), rfl⟩
  split at h
  · next ha =>
    obtain ⟨hlow, hhigh⟩ := toNat_bounds ha
    split at h
    · next b more =>
      split at h
      · next hb =>
        cases h
        exact ⟨[a, b], .two hlow hhigh (isContinuation_iff.mp hb), rfl⟩
      · contradiction
    · contradiction
  split at h
  · next ha =>
    obtain ⟨hlow, hhigh⟩ := toNat_bounds ha
    split at h
    · next b more =>
      split at h
      · next hb =>
        obtain ⟨hb, hb', overlong, surrogate⟩ := secondOfThree_iff.mp hb
        split at h
        · next d more =>
          split at h
          · next hd =>
            cases h
            exact ⟨[a, b, d], .three hlow hhigh ⟨hb, hb'⟩ (isContinuation_iff.mp hd) overlong
              surrogate, rfl⟩
          · contradiction
        · contradiction
      · contradiction
    · contradiction
  split at h
  · next ha =>
    obtain ⟨hlow, hhigh⟩ := toNat_bounds ha
    split at h
    · next b more =>
      split at h
      · next hb =>
        obtain ⟨hb, hb', overlong, beyond⟩ := secondOfFour_iff.mp hb
        split at h
        · next d more =>
          split at h
          · next hd =>
            split at h
            · next e more =>
              split at h
              · next he =>
                cases h
                exact ⟨[a, b, d, e], .four hlow hhigh ⟨hb, hb'⟩ (isContinuation_iff.mp hd)
                  (isContinuation_iff.mp he) overlong beyond, rfl⟩
              · contradiction
            · contradiction
          · contradiction
        · contradiction
      · contradiction
    · contradiction
  · contradiction

/-- What is split off as a character is the bytes of that character. -/
theorem eq_of_next (h : next bytes = .scalar c rest) :
    bytes = String.utf8EncodeChar c ++ rest := by
  obtain ⟨s, hs, rfl⟩ := sequence_of_next h
  obtain ⟨d, rfl⟩ := hs.exists_char
  rw [next_utf8EncodeChar] at h
  cases h
  rfl

theorem next_ne_done (a : UInt8) (tail : List UInt8) : next (a :: tail) ≠ .done := by
  intro h
  simp only [next] at h
  repeat' split at h
  all_goals contradiction

/-- Where nothing was replaced, the bytes are those of the text that was read. -/
theorem encode_decodeLossy_or (bytes : List UInt8) :
    encode (decodeLossy bytes) = bytes ∨ '\uFFFD' ∈ decodeLossy bytes := by
  match bytes with
  | [] => exact .inl (by rw [decodeLossy, encode, List.flatMap_nil])
  | a :: tail =>
    cases hnext : next (a :: tail) with
    | done => exact absurd hnext (next_ne_done a tail)
    | scalar c rest =>
      have hlt : rest.length < (a :: tail).length := length_lt_of_next hnext
      rw [decodeLossy_of_scalar hnext, encode_cons]
      obtain heq | hmem := encode_decodeLossy_or rest
      · exact .inl (by rw [heq, ← eq_of_next hnext])
      · exact .inr (List.mem_cons_of_mem c hmem)
    | broken rest =>
      rw [decodeLossy_of_broken hnext]
      exact .inr List.mem_cons_self
termination_by bytes.length
decreasing_by exact hlt

/-- Well-formed bytes, and no others, are those of the text that is read from them. -/
theorem encode_decodeLossy_iff : encode (decodeLossy bytes) = bytes ↔ WellFormed bytes := by
  constructor
  · intro h
    exact wellFormed_iff.mpr ⟨_, h⟩
  · intro h
    obtain ⟨cs, rfl⟩ := wellFormed_iff.mp h
    rw [decodeLossy_encode]

/-- In bytes that are not well-formed there is something to replace. -/
theorem replacement_mem_decodeLossy (h : ¬ WellFormed bytes) : '\uFFFD' ∈ decodeLossy bytes :=
  (encode_decodeLossy_or bytes).resolve_left fun he => h (encode_decodeLossy_iff.mp he)

end

end PeekLock.Text.Utf8
