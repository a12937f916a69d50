import PeekLock.Amqp
import PeekLock.Proofs.Json.Fields

/-!
# PeekLock.Proofs.Amqp

What properties look like behind the wire.

A scalar arrives as it was sent.  Arrays and objects arrive as strings, so
properties come back unchanged if and only if there are none of these.
Whatever the other side sends, what is made of it survives the way back
and forth, because it has no arrays and objects and every number fits the
type in which it travels.
-/

namespace PeekLock

/-- A number has 64 bits: it is an integer with or without a sign, or a finite double. -/
def Json.Number.Fits : Json.Number → Prop
  | .integer n => -(Decimal.maxI64 : Int) - 1 ≤ n ∧ n ≤ Decimal.maxU64
  | .double x => x.isFinite = true

/-- A value that is a number has 64 bits. -/
def Json.Fits : Json → Prop
  | .number n => n.Fits
  | _ => True

instance (n : Json.Number) : Decidable n.Fits :=
  match n with
  | .integer _ => inferInstanceAs (Decidable (_ ∧ _))
  | .double _ => inferInstanceAs (Decidable (_ = _))

instance (v : Json) : Decidable v.Fits :=
  match v with
  | .number n => inferInstanceAs (Decidable n.Fits)
  | .null | .bool _ | .string _ | .array _ | .object _ => inferInstanceAs (Decidable True)

theorem Table.lookup_eq {α : Type} (key : String) (entries : List (String × α)) :
    Table.lookup key entries = entries.lookup key := by
  induction entries with
  | nil => rfl
  | cons e rest ih =>
    obtain ⟨k, a⟩ := e
    rw [Table.lookup, Json.lookup_cons_eq_ite, ih]
    simp only [eq_comm]

namespace Amqp

/-! ### One value -/

/-- What arrives where a value was sent. -/
def arrival (v : Json) : Json := if isStructured v then .string v.render else v

theorem arrival_eq_self_iff (v : Json) : arrival v = v ↔ isStructured v = false := by
  cases v <;> simp [arrival, isStructured]

theorem toJson?_ofJson_integer {n : Int} (h : Json.Number.Fits (.integer n)) :
    toJson? (ofJson (.number (.integer n))) = some (.number (.integer n)) := by
  obtain ⟨hlow, hhigh⟩ := h
  rw [ofJson]
  split
  · next hle =>
    have hback : (Int64.ofInt n).toInt = n :=
      Int64.toInt_ofInt_of_le (by simpa [Decimal.maxI64] using hlow)
        (by simp only [Decimal.maxI64] at hle; omega)
    rw [toJson?, hback, Json.int]
  · next hlt =>
    have hnat : (n.toNat : Int) = n := Int.toNat_of_nonneg (by omega)
    have hback : (UInt64.ofNat n.toNat).toNat = n.toNat :=
      UInt64.toNat_ofNat_of_lt' (by simp only [Decimal.maxU64] at hhigh; rw [UInt64.size]; omega)
    rw [toJson?, hback, Json.nat, hnat]

/-- There is a way back for whatever is sent. -/
theorem toJson?_ofJson {v : Json} (h : v.Fits) : toJson? (ofJson v) = some (arrival v) := by
  cases v with
  | number n =>
    cases n with
    | integer n => exact toJson?_ofJson_integer h
    | double x => exact congrArg some (if_pos h)
  | null | bool | string | array | object => rfl

/-- Whether the type of a value has a counterpart. -/
def Value.isSupported : Value → Bool
  | .binary _ | .decimal32 | .decimal64 | .decimal128 => false
  | _ => true

/-- The number that a value of one of the eight integer types stands for. -/
def Value.integer? : Value → Option Int
  | .ubyte n => some n.toNat
  | .ushort n => some n.toNat
  | .uint n => some n.toNat
  | .ulong n => some n.toNat
  | .byte n => some n.toInt
  | .short n => some n.toInt
  | .int n => some n.toInt
  | .long n => some n.toInt
  | _ => none

theorem isSome_toJson? (v : Value) : (toJson? v).isSome = v.isSupported := by
  cases v <;> rfl

theorem toJson?_of_integer {v : Value} {n : Int} (h : v.integer? = some n) :
    toJson? v = some (.int n) := by
  cases v <;> cases h <;> rfl

theorem isStructured_of_toJson? {v : Value} {j : Json} (h : toJson? v = some j) :
    isStructured j = false := by
  cases v <;> cases h <;> first | rfl | (unfold Json.double; split <;> rfl)

theorem fits_double (x : Float) : (Json.double x).Fits := by
  unfold Json.double
  split
  · assumption
  · trivial

theorem fits_nat {n : Nat} (h : n < 2 ^ 64) : (Json.nat n).Fits := by
  have hhigh : n ≤ Decimal.maxU64 := by simp only [Decimal.maxU64]; omega
  exact ⟨by omega, by exact_mod_cast hhigh⟩

theorem fits_int {n : Int} (hlow : -9223372036854775808 ≤ n) (hhigh : n < 9223372036854775808) :
    (Json.int n).Fits := by
  refine ⟨?_, ?_⟩
  · simp only [Decimal.maxI64]; omega
  · simp only [Decimal.maxU64]; omega

theorem fits_of_toJson? {v : Value} {j : Json} (h : toJson? v = some j) : j.Fits := by
  cases v with
  | ubyte n => cases h; exact fits_nat (n.toNat_lt.trans (by decide))
  | ushort n => cases h; exact fits_nat (n.toNat_lt.trans (by decide))
  | uint n => cases h; exact fits_nat (n.toNat_lt.trans (by decide))
  | ulong n => cases h; exact fits_nat n.toNat_lt
  | byte n =>
    cases h
    exact fits_int (le_trans (by decide) n.le_toInt) (n.toInt_lt.trans (by decide))
  | short n =>
    cases h
    exact fits_int (le_trans (by decide) n.le_toInt) (n.toInt_lt.trans (by decide))
  | int n =>
    cases h
    exact fits_int (le_trans (by decide) n.le_toInt) (n.toInt_lt.trans (by decide))
  | long n => cases h; exact fits_int n.le_toInt n.toInt_lt
  | timestamp ms => cases h; exact fits_int ms.le_toInt ms.toInt_lt
  | float x => cases h; exact fits_double x.toFloat
  | double x => cases h; exact fits_double x
  | null | bool | char | uuid | string | symbol => cases h; trivial
  | binary | decimal32 | decimal64 | decimal128 => contradiction

/-! ### All properties -/

/-- What is made of one property. -/
def rendition (e : String × Value) : Option (String × Json) := (toJson? e.2).map (e.1, ·)

theorem toProperties_eq (m : Properties) :
    toProperties m = .ofList (m.entries.filterMap rendition) := rfl

/-- Properties as they come back from the other side. -/
def returned (p : PeekLock.Properties) : PeekLock.Properties := toProperties (ofProperties p)

/-- What comes back is what was sent, with a string for each value that travels as text. -/
theorem returned_eq_map {p : PeekLock.Properties} (hs : Json.Sorted p)
    (hf : ∀ e ∈ p, e.2.Fits) : returned p = p.map fun e => (e.1, arrival e.2) := by
  have harrive : (ofProperties p).entries.filterMap rendition =
      p.map fun e => (e.1, arrival e.2) := by
    rw [ofProperties, List.filterMap_map, ← List.filterMap_eq_map]
    exact List.filterMap_congr fun e he =>
      congrArg (Option.map (e.1, ·)) (toJson?_ofJson (hf e he))
  rw [returned, toProperties_eq, harrive]
  exact Json.propertiesOfList_of_sorted (List.pairwise_map.mpr hs)

theorem returned_eq_self_iff {p : PeekLock.Properties} (hs : Json.Sorted p)
    (hf : ∀ e ∈ p, e.2.Fits) : returned p = p ↔ ∀ e ∈ p, isStructured e.2 = false := by
  have hmap : returned p = p ↔ ∀ e ∈ p, ((e.1, arrival e.2) : String × Json) = e := by
    rw [returned_eq_map hs hf]
    conv_lhs => rhs; rw [← List.map_id p]
    exact List.map_inj_left
  rw [hmap]
  refine forall₂_congr fun e _ => ?_
  rw [← arrival_eq_self_iff, Prod.ext_iff]
  exact and_iff_right rfl

theorem key_of_rendition {e : String × Value} {f : String × Json} (h : rendition e = some f) :
    f.1 = e.1 := by
  obtain ⟨j, -, rfl⟩ := Option.map_eq_some_iff.mp h
  rfl

theorem nodup_keys_entries {entries : List (String × Value)} (h : (entries.map (·.1)).Nodup) :
    ((entries.filterMap rendition).map (·.1)).Nodup := by
  refine List.pairwise_map.mpr ((List.pairwise_map.mp h).filterMap _ fun e f hne e' he f' hf => ?_)
  rwa [key_of_rendition he, key_of_rendition hf]

theorem lookup_entries {entries : List (String × Value)} (h : (entries.map (·.1)).Nodup)
    (key : String) :
    (entries.filterMap rendition).lookup key = (entries.lookup key).bind toJson? := by
  induction entries with
  | nil => rfl
  | cons e rest ih =>
    obtain ⟨k, v⟩ := e
    obtain ⟨hhead, htail⟩ := List.nodup_cons.mp h
    rw [Json.lookup_cons_eq_ite, List.filterMap_cons, rendition]
    cases hv : toJson? v with
    | none =>
      rw [Option.map_none, ih htail]
      split
      · next hk => rw [hk, Json.lookup_eq_none_of_not_mem hhead, Option.bind_some, hv]; rfl
      · rfl
    | some j =>
      rw [Option.map_some, Json.lookup_cons_eq_ite, ih htail]
      split
      · rw [Option.bind_some, hv]
      · rfl

/-- What is made of a key is what is made of its value. -/
theorem lookup_toProperties {m : Properties} (h : (m.entries.map (·.1)).Nodup) (key : String) :
    (toProperties m).lookup key = (m.get? key).bind toJson? := by
  rw [toProperties_eq, Json.lookup_propertiesOfList (nodup_keys_entries h), lookup_entries h,
    Table.get?, Table.lookup_eq]

theorem sorted_toProperties (m : Properties) : Json.Sorted (toProperties m) :=
  Json.sorted_propertiesOfList _

theorem exists_value_of_mem_toProperties {m : Properties} (h : (m.entries.map (·.1)).Nodup)
    {key : String} {j : Json} (hm : (key, j) ∈ toProperties m) :
    ∃ v, m.get? key = some v ∧ toJson? v = some j := by
  have hlookup := Json.lookup_of_mem (sorted_toProperties m).nodup_keys hm
  rw [lookup_toProperties h] at hlookup
  exact Option.bind_eq_some_iff.mp hlookup

theorem returned_toProperties {m : Properties} (h : (m.entries.map (·.1)).Nodup) :
    returned (toProperties m) = toProperties m := by
  refine (returned_eq_self_iff (sorted_toProperties m) fun e he => ?_).mpr fun e he => ?_
  · obtain ⟨v, -, hv⟩ := exists_value_of_mem_toProperties h he
    exact fits_of_toJson? hv
  · obtain ⟨v, -, hv⟩ := exists_value_of_mem_toProperties h he
    exact isStructured_of_toJson? hv

theorem mem_keys_toProperties_iff {m : Properties} (h : (m.entries.map (·.1)).Nodup)
    (key : String) :
    key ∈ (toProperties m).map (·.1) ↔ ∃ v, m.get? key = some v ∧ v.isSupported = true := by
  constructor
  · intro hkey
    obtain ⟨⟨_, j⟩, he, rfl⟩ := List.mem_map.mp hkey
    obtain ⟨v, hv, hj⟩ := exists_value_of_mem_toProperties h he
    exact ⟨v, hv, by rw [← isSome_toJson?, hj]; rfl⟩
  · rintro ⟨v, hv, hsup⟩
    obtain ⟨j, hj⟩ := Option.isSome_iff_exists.mp ((isSome_toJson? v).trans hsup)
    have hlookup : (toProperties m).lookup key = some j := by
      rw [lookup_toProperties h, hv, Option.bind_some, hj]
    exact List.mem_map.mpr ⟨_, Json.mem_of_lookup hlookup, rfl⟩

/-! ### Both directions -/

/-- What comes back of the properties that are sent. -/
structure Returned (p q : PeekLock.Properties) : Prop where
  /-- No key is lost and none comes in. -/
  keys : q.map (·.1) = p.map (·.1)
  /-- A scalar comes back as it is. -/
  scalars : ∀ key v, (key, v) ∈ p → isStructured v = false → q.lookup key = some v
  /-- An array or object comes back as its text. -/
  texts : ∀ key v, (key, v) ∈ p → isStructured v = true → q.lookup key = some (.string v.render)
  /-- So it is seen from the outside whether there were arrays or objects. -/
  eq_iff : q = p ↔ ∀ e ∈ p, isStructured e.2 = false

/-- What is made of properties that the other side sends. -/
structure Received (m : Properties) (r : PeekLock.Properties) : Prop where
  /-- A key is left out if and only if the type of its value has no counterpart. -/
  keys : ∀ key, key ∈ r.map (·.1) ↔ ∃ v, m.get? key = some v ∧ v.isSupported = true
  /-- An integer of any type stays what it is. -/
  integers : ∀ key v n, m.get? key = some v → v.integer? = some n → r.lookup key = some (.int n)
  /-- Sent back, it comes back unchanged. -/
  returned : toProperties (ofProperties r) = r

theorem returned_of_sorted {p : PeekLock.Properties} (hs : Json.Sorted p)
    (hf : ∀ e ∈ p, e.2.Fits) : Returned p (toProperties (ofProperties p)) := by
  have hmap : toProperties (ofProperties p) = p.map fun e => (e.1, arrival e.2) :=
    returned_eq_map hs hf
  have hlookup : ∀ key v, (key, v) ∈ p →
      (toProperties (ofProperties p)).lookup key = some (arrival v) := fun key v hm =>
    Json.lookup_of_mem (sorted_toProperties _).nodup_keys
      (hmap ▸ List.mem_map.mpr ⟨(key, v), hm, rfl⟩)
  refine ⟨?_, fun key v hm hv => ?_, fun key v hm hv => ?_, returned_eq_self_iff hs hf⟩
  · rw [hmap, List.map_map]
    rfl
  · rw [hlookup key v hm, (arrival_eq_self_iff v).mpr hv]
  · rw [hlookup key v hm, arrival, if_pos hv]

theorem received_of_nodup {m : Properties} (h : (m.entries.map (·.1)).Nodup) :
    Received m (toProperties m) where
  keys := mem_keys_toProperties_iff h
  integers key v n hm hn := by
    rw [lookup_toProperties h, hm, Option.bind_some, toJson?_of_integer hn]
  returned := returned_toProperties h

/-- **Properties over the wire**: what is sent comes back with arrays and objects turned into their
text and all else as it was, and what comes from the other side survives the way back and forth. -/
theorem properties_overTheWire :
    (∀ p : PeekLock.Properties, Json.Sorted p → (∀ e ∈ p, e.2.Fits) →
      Returned p (toProperties (ofProperties p))) ∧
    ∀ m : Properties, (m.entries.map (·.1)).Nodup → Received m (toProperties m) :=
  ⟨fun _ hs hf => returned_of_sorted hs hf, fun _ h => received_of_nodup h⟩

/-- Properties with both ends of the range of integers, a fraction and a list. -/
def mixed : PeekLock.Properties := [
  ("count", .int (-9223372036854775808)), ("limit", .nat 18446744073709551615), ("none", .null),
  ("ratio", .number (.double 0.5)), ("tags", .array [.string "a", .bool true]),
  ("urgent", .bool false)]

/-- Properties of types that no sender here makes use of. -/
def foreign : Properties := ⟨[
  ("u", .ulong 18446744073709551615), ("b", .byte (-128)), ("x", .binary [1, 2]),
  ("d", .double (Float.ofBits 0x7FF8000000000000)), ("s", .symbol "order"), ("p", .decimal64)]⟩

theorem properties_overTheWire_mixed :
    Json.Sorted mixed ∧ (∀ e ∈ mixed, e.2.Fits) ∧ (foreign.entries.map (·.1)).Nodup ∧
    Returned mixed (toProperties (ofProperties mixed)) ∧ Received foreign (toProperties foreign) ∧
    (toProperties (ofProperties mixed)).lookup "tags" = some (.string "[\"a\",true]") ∧
    toProperties foreign = [("b", .int (-128)), ("d", .null), ("s", .string "order"),
      ("u", .nat 18446744073709551615)] := by
  have hs : Json.Sorted mixed := by decide
  have hf : ∀ e ∈ mixed, e.2.Fits := by decide
  have hn : (foreign.entries.map (·.1)).Nodup := by decide
  exact ⟨hs, hf, hn, properties_overTheWire.1 mixed hs hf, properties_overTheWire.2 foreign hn,
    by decide, by decide⟩

end Amqp

end PeekLock
