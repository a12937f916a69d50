import PeekLock.Proofs.Json.Texts

/-!
# PeekLock.Proofs.Json.Nesting

Values that are nested too deep are refused.

The reader counts the arrays and objects that it may still enter.  What is
written for a value that needs one more than that is read up to the bracket
that is one too many, and refused there: everything in front of it is read
back, and the fault goes all the way up (`value_tooDeep`).  So the text of an
exact value is read back if and only if its nesting is within the limit
(`read_bytes_iff`).
-/

namespace PeekLock.Json

/-- A reading ends at a bracket that is one too many. -/
def Reader.TooDeep {α : Type} (r : Reader.Reading α) : Prop :=
  ∃ unread, r = .error ⟨.tooDeep, unread⟩

namespace Reader

open Text.Utf8

section

variable {fuel depth : Nat} {bytes rest : List UInt8} {b : UInt8} {v : Json}

theorem TooDeep.map {α β : Type} {r : Reading α} (h : TooDeep r)
    (f : α × List UInt8 → β × List UInt8) : TooDeep (r.map f) := by
  obtain ⟨unread, rfl⟩ := h
  exact ⟨unread, rfl⟩

/-! ### One step of the reader -/

theorem value_bracket_zero : TooDeep (value (fuel + 1) 0 (byte '[' :: bytes)) := by
  rw [value]
  exact ⟨_, rfl⟩

theorem value_brace_zero : TooDeep (value (fuel + 1) 0 (byte '\x7b' :: bytes)) := by
  rw [value]
  exact ⟨_, rfl⟩

theorem items_first_tooDeep (hv : v.IsExact)
    (h : TooDeep (value fuel depth (encode v.chars ++ bytes))) (behind : List Json) :
    TooDeep (items (fuel + 1) depth true behind (encode v.chars ++ bytes)) := by
  obtain ⟨unread, h⟩ := h
  obtain ⟨b, more, hb, hs, hne⟩ := head_encode_chars hv
  rw [hb, List.cons_append] at h ⊢
  refine ⟨unread, ?_⟩
  rw [items, skipBlanks_cons hs]
  simp only [hne, if_false, if_true, h]

theorem items_comma_tooDeep (hv : v.IsExact)
    (h : TooDeep (value fuel depth (encode v.chars ++ bytes))) (behind : List Json) :
    TooDeep (items (fuel + 1) depth false behind (byte ',' :: (encode v.chars ++ bytes))) := by
  obtain ⟨unread, h⟩ := h
  obtain ⟨b, more, hb, hs, hne⟩ := head_encode_chars hv
  rw [hb, List.cons_append] at h ⊢
  have hcomma : byte ',' ≠ byte ']' := by decide
  refine ⟨unread, ?_⟩
  rw [items, skipBlanks_cons rfl]
  simp only [skipBlanks_cons hs, hcomma, hne, if_false, if_true, h, Bool.false_eq_true]

/-- A field whose value is refused. -/
theorem member_value_tooDeep {key : String} {fields behind : List (String × Json)}
    (h : TooDeep (value fuel depth (encode v.chars ++ (encode (moreFields fields) ++ rest)))) :
    TooDeep (member (fuel + 1) depth behind (fieldBytes key v fields ++ rest)) := by
  obtain ⟨unread, h⟩ := h
  have hk : stringTail (encode (key.toList.flatMap escapeChar) ++ 0x22 :: byte ':' ::
      (encode v.chars ++ (encode (moreFields fields) ++ rest))) = .ok (key, _) :=
    stringTail_quote key
  refine ⟨unread, ?_⟩
  rw [fieldBytes, List.append_assoc, List.cons_append, List.cons_append, List.append_assoc,
    member, hk]
  simp only [skipBlanks_cons (b := byte ':') rfl, if_true, h]

/-- A field whose value is read, while a field behind it is refused. -/
theorem member_rest_tooDeep {key : String} {fields behind : List (String × Json)}
    (hv : value fuel depth (encode v.chars ++ (encode (moreFields fields) ++ rest)) =
      .ok (v, encode (moreFields fields) ++ rest))
    (h : TooDeep (members fuel depth false ((key, v) :: behind)
      (encode (moreFields fields) ++ rest))) :
    TooDeep (member (fuel + 1) depth behind (fieldBytes key v fields ++ rest)) := by
  rw [member_eq_members hv]
  exact h

end

end Reader

/-! ### What is written for deep values -/

mutual

open Reader Text.Utf8

/-- What is written for a value that is nested deeper than the reader may go is refused. -/
theorem value_tooDeep : ∀ (v : Json), v.IsExact → ∀ {fuel depth : Nat} {rest : List UInt8},
    (encode v.chars).length < fuel → depth < v.depth →
    TooDeep (value fuel depth (encode v.chars ++ rest))
  | .null, _, _, _, _, _, hd => absurd hd (Nat.not_lt_zero _)
  | .bool _, _, _, _, _, _, hd => absurd hd (Nat.not_lt_zero _)
  | .number _, _, _, _, _, _, hd => absurd hd (Nat.not_lt_zero _)
  | .string _, _, _, _, _, _, hd => absurd hd (Nat.not_lt_zero _)
  | .array [], _, fuel + 1, depth, rest, _, hd => by
    obtain rfl : depth = 0 := Nat.lt_one_iff.mp hd
    show TooDeep (value (fuel + 1) 0 (byte '[' :: byte ']' :: rest))
    exact value_bracket_zero
  | .array (v :: vs), _, fuel + 1, 0, rest, _, _ => by
    rw [encode_array]
    exact value_bracket_zero
  | .array (v :: vs), hv, fuel + 2, depth + 1, rest, hf, hd => by
    have hlength := congrArg List.length (encode_array v vs)
    have hpos := length_chars_pos hv.1
    have hmore := length_moreItems_pos vs
    simp only [List.length_cons, List.length_append] at hlength
    rw [Json.depth, itemsDepth] at hd
    rw [encode_array, List.cons_append, List.append_assoc, value_bracket]
    refine TooDeep.map ?_ _
    by_cases hfirst : v.depth ≤ depth
    · have hread : value fuel depth (encode v.chars ++ (encode (moreItems vs) ++ rest)) = _ :=
        value_chars v hv.1 (by omega) hfirst (endsNumber_moreItems vs)
      rw [items_first_chars hv.1 hread]
      exact items_tooDeep vs hv.2 [v] (by omega) (by omega)
    · exact items_first_tooDeep hv.1 (value_tooDeep v hv.1 (by omega) (by omega)) []
  | .object [], _, fuel + 1, depth, rest, _, hd => by
    obtain rfl : depth = 0 := Nat.lt_one_iff.mp hd
    show TooDeep (value (fuel + 1) 0 (byte '\x7b' :: byte '\x7d' :: rest))
    exact value_brace_zero
  | .object ((k, v) :: fields), _, fuel + 1, 0, rest, _, _ => by
    rw [encode_object]
    exact value_brace_zero
  | .object ((k, v) :: fields), hv, fuel + 3, depth + 1, rest, hf, hd => by
    have hlength := congrArg List.length (encode_object k v fields)
    have hpos := length_chars_pos hv.2.1
    have hmore := length_moreFields_pos fields
    simp only [fieldBytes, List.length_cons, List.length_append] at hlength
    rw [Json.depth, fieldsDepth] at hd
    rw [encode_object, List.cons_append, List.cons_append, value_brace, members_first]
    refine TooDeep.map ?_ _
    by_cases hfirst : v.depth ≤ depth
    · exact member_rest_tooDeep
        (value_chars v hv.2.1 (by omega) hfirst (endsNumber_moreFields fields))
        (members_tooDeep fields hv.2.2 [(k, v)] (by omega) (by omega))
    · exact member_value_tooDeep (value_tooDeep v hv.2.1 (by omega) (by omega))

/-- So is what is written for items of which one is such a value. -/
theorem items_tooDeep : ∀ (vs : List Json), ItemsExact vs → ∀ {fuel depth : Nat}
    {rest : List UInt8} (behind : List Json), (encode (moreItems vs)).length < fuel →
    depth < itemsDepth vs →
    TooDeep (items fuel depth false behind (encode (moreItems vs) ++ rest))
  | v :: vs, hv, fuel + 1, depth, rest, behind, hf, hd => by
    have hlength := congrArg List.length (encode_moreItems v vs)
    have hpos := length_chars_pos hv.1
    have hmore := length_moreItems_pos vs
    simp only [List.length_cons, List.length_append] at hlength
    rw [itemsDepth] at hd
    rw [encode_moreItems, List.cons_append, List.append_assoc]
    by_cases hfirst : v.depth ≤ depth
    · have hread : value fuel depth (encode v.chars ++ (encode (moreItems vs) ++ rest)) = _ :=
        value_chars v hv.1 (by omega) hfirst (endsNumber_moreItems vs)
      rw [items_comma_chars hv.1 hread]
      exact items_tooDeep vs hv.2 (v :: behind) (by omega) (by omega)
    · exact items_comma_tooDeep hv.1 (value_tooDeep v hv.1 (by omega) (by omega)) behind

/-- So is what is written for fields of which one has such a value. -/
theorem members_tooDeep : ∀ (fields : List (String × Json)), FieldsExact fields →
    ∀ {fuel depth : Nat} {rest : List UInt8} (behind : List (String × Json)),
    (encode (moreFields fields)).length < fuel → depth < fieldsDepth fields →
    TooDeep (members fuel depth false behind (encode (moreFields fields) ++ rest))
  | (k, v) :: fields, hv, fuel + 2, depth, rest, behind, hf, hd => by
    have hlength := congrArg List.length (encode_moreFields k v fields)
    have hpos := length_chars_pos hv.1
    have hmore := length_moreFields_pos fields
    simp only [fieldBytes, List.length_cons, List.length_append] at hlength
    rw [fieldsDepth] at hd
    rw [encode_moreFields, List.cons_append, List.cons_append, members_comma]
    by_cases hfirst : v.depth ≤ depth
    · exact member_rest_tooDeep
        (value_chars v hv.1 (by omega) hfirst (endsNumber_moreFields fields))
        (members_tooDeep fields hv.2 ((k, v) :: behind) (by omega) (by omega))
    · exact member_value_tooDeep (value_tooDeep v hv.1 (by omega) (by omega))

end

open Reader in
/-- The text of a value beyond the limit is refused for its depth. -/
theorem read_tooDeep {v : Json} (hv : v.IsExact) (hd : maxDepth < v.depth) :
    ∃ f, Json.read v.bytes = .error f ∧ f.cause = .tooDeep := by
  have hread : TooDeep (value (steps v.bytes) maxDepth (v.bytes ++ [])) :=
    value_tooDeep v hv (by rw [steps, bytes]; omega) hd
  obtain ⟨unread, hread⟩ := hread
  rw [List.append_nil] at hread
  exact ⟨⟨.tooDeep, unread⟩, by rw [read, hread], rfl⟩

/-- **How deep**: the text of an exact value is read back if and only if its nesting is within
the limit. -/
theorem read_bytes_iff {v : Json} (hv : v.IsExact) :
    Json.read v.bytes = .ok v ↔ v.depth ≤ Reader.maxDepth := by
  constructor
  · intro h
    refine Nat.le_of_not_lt fun hd => ?_
    obtain ⟨f, hf, -⟩ := read_tooDeep hv hd
    exact nomatch h.symm.trans hf
  · exact read_bytes hv

end PeekLock.Json
