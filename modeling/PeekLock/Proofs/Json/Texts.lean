import PeekLock.Json.Reader
import PeekLock.Proofs.Json.Fields
import PeekLock.Proofs.Json.Scalars

/-!
# PeekLock.Proofs.Json.Texts

Values that are written as JSON are read back.

The text of a value says all about it, unless there is a double in it: a
double is read from its digits by an arithmetic of its own.  Any other
value (`IsExact`) is read back from its text, as long as its arrays and
objects are nested no deeper than the reader goes (`read_bytes`).
-/

namespace PeekLock.Json

mutual

/-- There is no double in a value, its integers fit 64 bits, and the fields of its objects
are in the order of their keys. -/
def IsExact : Json → Prop
  | .number (.integer n) => -(Decimal.maxI64 + 1 : Int) ≤ n ∧ n ≤ Decimal.maxU64
  | .number (.double _) => False
  | .array items => ItemsExact items
  | .object fields => Sorted fields ∧ FieldsExact fields
  | _ => True

/-- All items are exact. -/
def ItemsExact : List Json → Prop
  | [] => True
  | v :: rest => v.IsExact ∧ ItemsExact rest

/-- The values of all fields are exact. -/
def FieldsExact : List (String × Json) → Prop
  | [] => True
  | (_, v) :: rest => v.IsExact ∧ FieldsExact rest

end

namespace Reader

open Text.Utf8 Decimal

/-! ### One step of the reader -/

section

variable {fuel depth : Nat} {bytes rest : List UInt8} {b : UInt8} {v : Json}

theorem skipBlanks_cons (h : isSpace b = false) : skipBlanks (b :: bytes) = b :: bytes := by
  simp only [skipBlanks, List.dropWhile_cons, h, if_false, Bool.false_eq_true]

theorem value_minus : value (fuel + 1) depth (byte '-' :: bytes) =
    (numeral true bytes).map fun (n, rest) => (.number n, rest) := by
  rw [value]
  rfl

theorem ne_of_isDigit {c : UInt8} (h : isDigit b = true) (hc : isDigit c = false) : b ≠ c :=
  fun he => by
    rw [he, hc] at h
    contradiction

theorem isSpace_of_isDigit (h : isDigit b = true) : isSpace b = false := by
  have hne {c : UInt8} (hc : isDigit c = false) : b ≠ c := ne_of_isDigit h hc
  simp [isSpace, hne (c := 0x20) rfl, hne (c := 0x0A) rfl, hne (c := 0x09) rfl,
    hne (c := 0x0D) rfl]

theorem value_digit (h : isDigit b = true) : value (fuel + 1) depth (b :: bytes) =
    (numeral false (b :: bytes)).map fun (n, rest) => (.number n, rest) := by
  have hne {c : UInt8} (hc : isDigit c = false) : b ≠ c := ne_of_isDigit h hc
  rw [value, skipBlanks_cons (isSpace_of_isDigit h)]
  simp only [hne (c := byte 'n') rfl, hne (c := byte 't') rfl, hne (c := byte 'f') rfl,
    hne (c := byte '-') rfl, h, if_false, if_true]

theorem value_quote : value (fuel + 1) depth (byte '"' :: bytes) =
    (stringTail bytes).map fun (s, rest) => (.string s, rest) := by
  rw [value]
  rfl

theorem value_bracket : value (fuel + 1) (depth + 1) (byte '[' :: bytes) =
    (items fuel depth true [] bytes).map fun (vs, rest) => (.array vs, rest) := by
  rw [value]
  rfl

theorem value_brace : value (fuel + 1) (depth + 1) (byte '\x7b' :: bytes) =
    (members fuel depth true [] bytes).map fun (ms, rest) => (ofMembers ms, rest) := by
  rw [value]
  rfl

theorem items_end (first : Bool) (behind : List Json) :
    items (fuel + 1) depth first behind (byte ']' :: rest) = .ok (behind.reverse, rest) := by
  rw [items]
  rfl

theorem items_first (hs : isSpace b = false) (hb : b ≠ byte ']')
    (hv : value fuel depth (b :: bytes) = .ok (v, rest)) (behind : List Json) :
    items (fuel + 1) depth true behind (b :: bytes) =
      items fuel depth false (v :: behind) rest := by
  rw [items, skipBlanks_cons hs]
  simp only [hb, if_false, if_true, hv]

theorem items_comma (hs : isSpace b = false) (hb : b ≠ byte ']')
    (hv : value fuel depth (b :: bytes) = .ok (v, rest)) (behind : List Json) :
    items (fuel + 1) depth false behind (byte ',' :: b :: bytes) =
      items fuel depth false (v :: behind) rest := by
  have hcomma : byte ',' ≠ byte ']' := by decide
  rw [items, skipBlanks_cons rfl]
  simp only [skipBlanks_cons hs, hcomma, hb, if_false, if_true, hv, Bool.false_eq_true]

theorem members_end (first : Bool) (behind : List (String × Json)) :
    members (fuel + 1) depth first behind (byte '\x7d' :: rest) = .ok (behind.reverse, rest) := by
  rw [members]
  rfl

theorem members_first (behind : List (String × Json)) :
    members (fuel + 1) depth true behind (byte '"' :: bytes) = member fuel depth behind bytes := by
  rw [members]
  rfl

theorem members_comma (behind : List (String × Json)) :
    members (fuel + 1) depth false behind (byte ',' :: byte '"' :: bytes) =
      member fuel depth behind bytes := by
  rw [members]
  rfl

theorem member_colon {key : String} {behindKey : List UInt8} (behind : List (String × Json))
    (hk : stringTail bytes = .ok (key, byte ':' :: behindKey))
    (hv : value fuel depth behindKey = .ok (v, rest)) :
    member (fuel + 1) depth behind bytes = members fuel depth false ((key, v) :: behind) rest := by
  rw [member, hk]
  simp only [skipBlanks_cons (b := byte ':') rfl, if_true, hv]

end

/-! ### Reading what was written -/

section

variable {rest : List UInt8}

theorem encode_quote (s : String) : encode (quote s) ++ rest =
    byte '"' :: (encode (s.toList.flatMap escapeChar) ++ 0x22 :: rest) := by
  rw [quote, List.cons_append, encode_cons, encode_append, List.append_assoc, List.append_assoc]
  rfl

theorem encode_toDigits (n : Nat) : encode (Nat.toDigits 10 n) = (Nat.toDigits 10 n).map byte := by
  refine encode_of_lt fun c hc => ?_
  have hd := toNat_of_isDigit (Nat.isDigit_of_mem_toDigits (by decide) (by decide) hc)
  omega

/-- What is written for an integer. -/
theorem chars_integer (n : Int) : (Number.integer n).chars =
    if n < 0 then '-' :: Nat.toDigits 10 n.natAbs else Nat.toDigits 10 n.natAbs := by
  rw [Number.chars, Decimal.toList_toString]

/-- The digits of a number start with a digit. -/
theorem head_toDigits (n : Nat) : ∃ b bytes, (Nat.toDigits 10 n).map byte = b :: bytes ∧
    isDigit b = true := by
  cases hds : Nat.toDigits 10 n with
  | nil => exact (Nat.toDigits_ne_nil hds).elim
  | cons d ds =>
    refine ⟨byte d, ds.map byte, rfl, isDigit_byte ?_⟩
    exact Nat.isDigit_of_mem_toDigits (by decide) (by decide) (hds ▸ List.mem_cons_self)

theorem value_integer {n : Int} (hmin : -(maxI64 + 1 : Int) ≤ n) (hmax : n ≤ maxU64)
    {fuel depth : Nat} (hr : endsNumber rest = true) :
    value (fuel + 1) depth (encode (Number.integer n).chars ++ rest) =
      .ok (.number (.integer n), rest) := by
  rw [chars_integer]
  simp only [maxI64, maxU64] at hmin hmax
  have hfits : n.natAbs ≤ maxU64 := by
    simp only [maxU64]
    omega
  split
  · next hneg =>
    have hwhole : wholeNumber true n.natAbs = .integer n := by
      have hzero : n.natAbs ≠ 0 := by omega
      have hsmall : ¬ maxI64 + 1 < n.natAbs := by
        simp only [maxI64]
        omega
      have habs : -(n.natAbs : Int) = n := by omega
      simp only [wholeNumber, hzero, hsmall, habs, decide_false, Bool.or_self, Bool.not_true,
        if_false, Bool.false_eq_true]
    rw [encode_cons, encode_toDigits, List.append_assoc]
    show value (fuel + 1) depth (byte '-' :: ((Nat.toDigits 10 n.natAbs).map byte ++ rest)) = _
    rw [value_minus, numeral_toDigits true hfits hr, hwhole]
    rfl
  · next hpos =>
    have hwhole : wholeNumber false n.natAbs = .integer n :=
      congrArg Number.integer (Int.natAbs_of_nonneg (by omega))
    have hread := numeral_toDigits false hfits hr
    obtain ⟨b, bytes, hb, hdigit⟩ := head_toDigits n.natAbs
    rw [hb, List.cons_append] at hread
    rw [encode_toDigits, hb, List.cons_append, value_digit hdigit, hread, hwhole]
    rfl

/-- The text of a value starts with a byte that is neither a blank nor the end of an array. -/
theorem head_encode_chars {v : Json} (hv : v.IsExact) : ∃ b bytes, encode v.chars = b :: bytes ∧
    isSpace b = false ∧ b ≠ byte ']' := by
  have known (c : Char) (cs : List Char) (b : UInt8) (hb : String.utf8EncodeChar c = [b])
      (h : isSpace b = false ∧ b ≠ byte ']') : ∃ b bytes, encode (c :: cs) = b :: bytes ∧
        isSpace b = false ∧ b ≠ byte ']' :=
    ⟨b, encode cs, by rw [encode_cons, hb]; rfl, h⟩
  cases v with
  | null => exact known 'n' _ _ rfl (by decide)
  | bool value => cases value <;> exact known _ _ _ rfl (by decide)
  | number n =>
    cases n with
    | integer n =>
      rw [chars, chars_integer]
      split
      · exact known '-' _ _ rfl (by decide)
      · obtain ⟨b, bytes, hb, hdigit⟩ := head_toDigits n.natAbs
        exact ⟨b, bytes, by rw [encode_toDigits, hb], isSpace_of_isDigit hdigit,
          ne_of_isDigit hdigit rfl⟩
    | double x => exact hv.elim
  | string s => exact known '"' _ _ rfl (by decide)
  | array items => cases items <;> exact known '[' _ _ rfl (by decide)
  | object fields =>
    obtain _ | ⟨⟨k, v⟩, fields⟩ := fields <;> exact known '\x7b' _ _ rfl (by decide)

theorem endsNumber_moreItems (items : List Json) :
    endsNumber (encode (moreItems items) ++ rest) = true := by
  cases items <;> rfl

theorem endsNumber_moreFields (fields : List (String × Json)) :
    endsNumber (encode (moreFields fields) ++ rest) = true := by
  obtain _ | ⟨⟨k, v⟩, fields⟩ := fields <;> rfl

theorem encode_array (v : Json) (vs : List Json) : encode (Json.array (v :: vs)).chars =
    byte '[' :: (encode v.chars ++ encode (moreItems vs)) := by
  rw [chars, List.cons_append, encode_cons, encode_append]
  rfl

theorem encode_moreItems (v : Json) (vs : List Json) : encode (moreItems (v :: vs)) =
    byte ',' :: (encode v.chars ++ encode (moreItems vs)) := by
  rw [moreItems, List.cons_append, encode_cons, encode_append]
  rfl

theorem length_chars_pos {v : Json} (hv : v.IsExact) : 0 < (encode v.chars).length := by
  obtain ⟨b, bytes, hb, -⟩ := head_encode_chars hv
  rw [hb]
  exact Nat.succ_pos _

theorem length_moreItems_pos (vs : List Json) : 0 < (encode (moreItems vs)).length := by
  cases vs <;> exact Nat.succ_pos _

theorem length_moreFields_pos (fields : List (String × Json)) :
    0 < (encode (moreFields fields)).length := by
  obtain _ | ⟨⟨k, v⟩, fields⟩ := fields <;> exact Nat.succ_pos _

/-- The first item is read if it can be read as a value. -/
theorem items_first_chars {fuel depth : Nat} {v : Json} {bytes : List UInt8} (hv : v.IsExact)
    (hread : value fuel depth (encode v.chars ++ bytes) = .ok (v, rest)) (behind : List Json) :
    items (fuel + 1) depth true behind (encode v.chars ++ bytes) =
      items fuel depth false (v :: behind) rest := by
  obtain ⟨b, more, hb, hs, hne⟩ := head_encode_chars hv
  rw [hb] at hread ⊢
  exact items_first hs hne hread behind

/-- A further item is read behind its comma. -/
theorem items_comma_chars {fuel depth : Nat} {v : Json} {bytes : List UInt8} (hv : v.IsExact)
    (hread : value fuel depth (encode v.chars ++ bytes) = .ok (v, rest)) (behind : List Json) :
    items (fuel + 1) depth false behind (byte ',' :: (encode v.chars ++ bytes)) =
      items fuel depth false (v :: behind) rest := by
  obtain ⟨b, more, hb, hs, hne⟩ := head_encode_chars hv
  rw [hb] at hread ⊢
  exact items_comma hs hne hread behind

/-- The text of a field and of those behind it, without the quote that opens the key. -/
def fieldBytes (key : String) (v : Json) (fields : List (String × Json)) : List UInt8 :=
  encode (key.toList.flatMap escapeChar) ++
    0x22 :: byte ':' :: (encode v.chars ++ encode (moreFields fields))

theorem encode_field (key : String) (v : Json) (fields : List (String × Json)) :
    encode (quote key ++ ':' :: v.chars ++ moreFields fields) =
      byte '"' :: fieldBytes key v fields := by
  rw [encode_append, encode_append, encode_quote, encode_cons, fieldBytes]
  simp only [List.cons_append, List.append_assoc]
  rfl

theorem encode_object (key : String) (v : Json) (fields : List (String × Json)) :
    encode (Json.object ((key, v) :: fields)).chars =
      byte '\x7b' :: byte '"' :: fieldBytes key v fields := by
  rw [chars, List.cons_append, List.cons_append, encode_cons, encode_field]
  rfl

theorem encode_moreFields (key : String) (v : Json) (fields : List (String × Json)) :
    encode (moreFields ((key, v) :: fields)) = byte ',' :: byte '"' :: fieldBytes key v fields := by
  rw [moreFields, List.cons_append, List.cons_append, encode_cons, encode_field]
  rfl

/-- When the value of a field is read, the reading goes on with the fields behind it. -/
theorem member_eq_members {fuel depth : Nat} {key : String} {v : Json}
    {fields : List (String × Json)} {behind : List (String × Json)}
    (hv : value fuel depth (encode v.chars ++ (encode (moreFields fields) ++ rest)) =
      .ok (v, encode (moreFields fields) ++ rest)) :
    member (fuel + 1) depth behind (fieldBytes key v fields ++ rest) =
      members fuel depth false ((key, v) :: behind) (encode (moreFields fields) ++ rest) := by
  have hk : stringTail (encode (key.toList.flatMap escapeChar) ++ 0x22 :: byte ':' ::
      (encode v.chars ++ (encode (moreFields fields) ++ rest))) = .ok (key, _) :=
    stringTail_quote key
  rw [fieldBytes, List.append_assoc, List.cons_append, List.cons_append, List.append_assoc,
    member_colon behind hk hv]

/-- A field is read if its value is, and the fields behind it. -/
theorem member_fieldBytes {fuel depth : Nat} {key : String} {v : Json}
    {fields : List (String × Json)} {behind : List (String × Json)}
    (hv : value fuel depth (encode v.chars ++ (encode (moreFields fields) ++ rest)) =
      .ok (v, encode (moreFields fields) ++ rest))
    (hm : members fuel depth false ((key, v) :: behind) (encode (moreFields fields) ++ rest) =
      .ok (((key, v) :: behind).reverse ++ fields, rest)) :
    member (fuel + 1) depth behind (fieldBytes key v fields ++ rest) =
      .ok (behind.reverse ++ (key, v) :: fields, rest) := by
  rw [member_eq_members hv, hm, List.reverse_cons, List.append_assoc]
  rfl

end

end Reader

mutual

open Reader Text.Utf8

/-- What is written for a value is read as that value. -/
theorem value_chars : ∀ (v : Json), v.IsExact → ∀ {fuel depth : Nat} {rest : List UInt8},
    (encode v.chars).length < fuel → v.depth ≤ depth → endsNumber rest = true →
    value fuel depth (encode v.chars ++ rest) = .ok (v, rest)
  | .null, _, fuel + 1, depth, rest, _, _, _ => by
    rw [value]
    rfl
  | .bool true, _, fuel + 1, depth, rest, _, _, _ => by
    rw [value]
    rfl
  | .bool false, _, fuel + 1, depth, rest, _, _, _ => by
    rw [value]
    rfl
  | .number (.integer n), hv, fuel + 1, depth, rest, _, _, hr => value_integer hv.1 hv.2 hr
  | .string s, _, fuel + 1, depth, rest, _, _, _ => by
    rw [chars, encode_quote, value_quote, stringTail_quote]
    rfl
  | .array [], _, fuel + 2, depth + 1, rest, _, _, _ => by
    show value (fuel + 2) (depth + 1) (byte '[' :: byte ']' :: rest) = _
    rw [value_bracket, items_end]
    rfl
  | .array (v :: vs), hv, fuel + 2, depth, rest, hf, hd, _ => by
    have hlength := congrArg List.length (encode_array v vs)
    have hpos := length_chars_pos hv.1
    have hmore := length_moreItems_pos vs
    simp only [List.length_cons, List.length_append] at hlength
    rw [Json.depth, itemsDepth] at hd
    obtain ⟨depth, rfl⟩ : ∃ d, depth = d + 1 := ⟨depth - 1, by omega⟩
    have hfirst : value fuel depth (encode v.chars ++ (encode (moreItems vs) ++ rest)) = _ :=
      value_chars v hv.1 (by omega) (by omega) (endsNumber_moreItems vs)
    rw [encode_array, List.cons_append, List.append_assoc, value_bracket,
      items_first_chars hv.1 hfirst, items_moreItems vs hv.2 [v] (by omega) (by omega)]
    rfl
  | .object [], _, fuel + 2, depth + 1, rest, _, _, _ => by
    show value (fuel + 2) (depth + 1) (byte '\x7b' :: byte '\x7d' :: rest) = _
    rw [value_brace, members_end]
    rfl
  | .object ((k, v) :: fields), hv, fuel + 3, depth, rest, hf, hd, _ => by
    have hlength := congrArg List.length (encode_object k v fields)
    have hpos := length_chars_pos hv.2.1
    have hmore := length_moreFields_pos fields
    simp only [fieldBytes, List.length_cons, List.length_append] at hlength
    rw [Json.depth, fieldsDepth] at hd
    obtain ⟨depth, rfl⟩ : ∃ d, depth = d + 1 := ⟨depth - 1, by omega⟩
    have hfirst : value fuel depth (encode v.chars ++ (encode (moreFields fields) ++ rest)) = _ :=
      value_chars v hv.2.1 (by omega) (by omega) (endsNumber_moreFields fields)
    have hrest : members fuel depth false [(k, v)] (encode (moreFields fields) ++ rest) = _ :=
      members_moreFields fields hv.2.2 [(k, v)] (by omega) (by omega)
    have hsorted : insertAll ((k, v) :: fields) [] = (k, v) :: fields := insertAll_of_sorted hv.1
    rw [encode_object, List.cons_append, List.cons_append, value_brace, members_first,
      member_fieldBytes hfirst hrest]
    exact congrArg (fun fields => Except.ok (Json.object fields, rest)) hsorted

/-- What is written for the items behind the first one is read as those. -/
theorem items_moreItems : ∀ (vs : List Json), ItemsExact vs → ∀ {fuel depth : Nat}
    {rest : List UInt8} (behind : List Json), (encode (moreItems vs)).length < fuel →
    itemsDepth vs ≤ depth →
    items fuel depth false behind (encode (moreItems vs) ++ rest) = .ok (behind.reverse ++ vs, rest)
  | [], _, fuel + 1, depth, rest, behind, _, _ => by
    rw [List.append_nil]
    exact items_end false behind
  | v :: vs, hv, fuel + 1, depth, rest, behind, hf, hd => by
    have hlength := congrArg List.length (encode_moreItems v vs)
    have hpos := length_chars_pos hv.1
    have hmore := length_moreItems_pos vs
    simp only [List.length_cons, List.length_append] at hlength
    rw [itemsDepth] at hd
    have hfirst : value fuel depth (encode v.chars ++ (encode (moreItems vs) ++ rest)) = _ :=
      value_chars v hv.1 (by omega) (by omega) (endsNumber_moreItems vs)
    rw [encode_moreItems, List.cons_append, List.append_assoc, items_comma_chars hv.1 hfirst,
      items_moreItems vs hv.2 (v :: behind) (by omega) (by omega), List.reverse_cons,
      List.append_assoc]
    rfl

/-- What is written for the fields behind the first one is read as those. -/
theorem members_moreFields : ∀ (fields : List (String × Json)), FieldsExact fields →
    ∀ {fuel depth : Nat} {rest : List UInt8} (behind : List (String × Json)),
    (encode (moreFields fields)).length < fuel → fieldsDepth fields ≤ depth →
    members fuel depth false behind (encode (moreFields fields) ++ rest) =
      .ok (behind.reverse ++ fields, rest)
  | [], _, fuel + 1, depth, rest, behind, _, _ => by
    rw [List.append_nil]
    exact members_end false behind
  | (k, v) :: fields, hv, fuel + 2, depth, rest, behind, hf, hd => by
    have hlength := congrArg List.length (encode_moreFields k v fields)
    have hpos := length_chars_pos hv.1
    have hmore := length_moreFields_pos fields
    simp only [fieldBytes, List.length_cons, List.length_append] at hlength
    rw [fieldsDepth] at hd
    have hfirst : value fuel depth (encode v.chars ++ (encode (moreFields fields) ++ rest)) = _ :=
      value_chars v hv.1 (by omega) (by omega) (endsNumber_moreFields fields)
    have hrest : members fuel depth false ((k, v) :: behind)
        (encode (moreFields fields) ++ rest) = _ :=
      members_moreFields fields hv.2 ((k, v) :: behind) (by omega) (by omega)
    rw [encode_moreFields, List.cons_append, List.cons_append, members_comma,
      member_fieldBytes hfirst hrest]

end

open Reader Text.Utf8 in
/-- **Reading back**: the text of an exact value is read as that value, unless the reader
finds it nested too deep. -/
theorem read_bytes {v : Json} (hv : v.IsExact) (hd : v.depth ≤ maxDepth) :
    Json.read v.bytes = .ok v := by
  have hread : value (steps v.bytes) maxDepth (v.bytes ++ []) = _ :=
    value_chars v hv (by rw [steps, bytes]; omega) hd rfl
  rw [List.append_nil] at hread
  rw [read, hread]
  rfl

/-- A value is sent as its text. -/
theorem bytesOf_render (v : Json) : Text.Utf8.bytesOf v.render = v.bytes := by
  rw [Text.Utf8.bytesOf, render, String.toList_ofList, bytes]

end PeekLock.Json
