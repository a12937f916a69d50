import Mathlib.Data.String.Basic
import PeekLock.Message

/-!
# PeekLock.Proofs.Json.Fields

Sorted fields.

The fields of an object and the properties of a message are kept in the
order of their keys.  A list of fields in that order is a finite map:
inserting keeps the order, inserting what is already in order changes
nothing, and a key is found if and only if it is there.
-/

namespace PeekLock.Json

/-- Every key is smaller than the ones behind it. -/
def Sorted (fields : List (String × Json)) : Prop := fields.Pairwise (·.1 < ·.1)

/-- Members put into fields one after another. -/
def insertAll (members fields : List (String × Json)) : List (String × Json) :=
  members.foldl (fun fields m => insertField m.1 m.2 fields) fields

theorem insertAll_cons (m : String × Json) (members fields : List (String × Json)) :
    insertAll (m :: members) fields = insertAll members (insertField m.1 m.2 fields) := rfl

instance (fields : List (String × Json)) : Decidable (Sorted fields) :=
  inferInstanceAs (Decidable (fields.Pairwise _))

theorem Sorted.nodup_keys {fields : List (String × Json)} (h : Sorted fields) :
    (fields.map (·.1)).Nodup :=
  List.pairwise_map.mpr (h.imp fun hlt => hlt.ne)

/-! ### Inserting a field -/

theorem mem_of_mem_insertField {key : String} {value : Json} {fields : List (String × Json)}
    {x : String × Json} (h : x ∈ insertField key value fields) : x = (key, value) ∨ x ∈ fields := by
  induction fields with
  | nil => exact .inl (List.mem_singleton.mp h)
  | cons f rest ih =>
    obtain ⟨k, v⟩ := f
    rw [insertField] at h
    split at h
    · exact List.mem_cons.mp h
    · split at h
      · exact (List.mem_cons.mp h).imp_right (List.mem_cons_of_mem _)
      · rcases List.mem_cons.mp h with rfl | h
        · exact .inr List.mem_cons_self
        · exact (ih h).imp_right (List.mem_cons_of_mem _)

theorem Sorted.insertField {fields : List (String × Json)} (h : Sorted fields) (key : String)
    (value : Json) : Sorted (insertField key value fields) := by
  induction fields with
  | nil => exact List.pairwise_singleton _ _
  | cons f rest ih =>
    obtain ⟨k, v⟩ := f
    obtain ⟨hhead, htail⟩ := List.pairwise_cons.mp h
    rw [Json.insertField]
    split
    · next hlt =>
      refine List.pairwise_cons.mpr ⟨fun x hx => ?_, h⟩
      rcases List.mem_cons.mp hx with rfl | hx
      · exact hlt
      · exact hlt.trans (hhead x hx)
    · split
      · next heq => exact List.pairwise_cons.mpr ⟨heq ▸ hhead, htail⟩
      · next hle hne =>
        have hgt : k < key := (lt_trichotomy key k).resolve_left hle |>.resolve_left hne
        refine List.pairwise_cons.mpr ⟨fun x hx => ?_, ih htail⟩
        rcases mem_of_mem_insertField hx with rfl | hx
        · exact hgt
        · exact hhead x hx

theorem Sorted.insertAll {fields : List (String × Json)} (h : Sorted fields)
    (members : List (String × Json)) : Sorted (insertAll members fields) := by
  induction members generalizing fields with
  | nil => exact h
  | cons m members ih => exact ih (h.insertField m.1 m.2)

theorem sorted_propertiesOfList (entries : List (String × Json)) :
    Sorted (Properties.ofList entries) :=
  Sorted.insertAll List.Pairwise.nil entries

/-- A key beyond all others goes to the end. -/
theorem insertField_of_forall_lt {key : String} (value : Json) {fields : List (String × Json)}
    (h : ∀ x ∈ fields, x.1 < key) : insertField key value fields = fields ++ [(key, value)] := by
  induction fields with
  | nil => rfl
  | cons f rest ih =>
    obtain ⟨k, v⟩ := f
    have hk : k < key := h _ List.mem_cons_self
    rw [insertField, if_neg hk.asymm, if_neg hk.ne', ih fun x hx => h x (List.mem_cons_of_mem _ hx)]
    rfl

theorem insertAll_of_sorted {fields members : List (String × Json)}
    (h : Sorted (fields ++ members)) : insertAll members fields = fields ++ members := by
  induction members generalizing fields with
  | nil => exact (List.append_nil fields).symm
  | cons m members ih =>
    have hm : ∀ x ∈ fields, x.1 < m.1 := fun x hx =>
      (List.pairwise_append.mp h).2.2 x hx m List.mem_cons_self
    have hsplit : fields ++ m :: members = (fields ++ [m]) ++ members := by
      rw [List.append_assoc, List.singleton_append]
    rw [insertAll_cons, insertField_of_forall_lt m.2 hm, hsplit]
    exact ih (hsplit ▸ h)

/-- What is already in order is its own map. -/
theorem propertiesOfList_of_sorted {p : Properties} (h : Sorted p) : Properties.ofList p = p := by
  have hnil : Sorted ([] ++ p) := h
  exact insertAll_of_sorted hnil

/-! ### Looking a key up -/

theorem lookup_cons_eq_ite {α : Type} (k : String) (v : α) (rest : List (String × α))
    (key : String) : ((k, v) :: rest).lookup key = if key = k then some v else rest.lookup key := by
  by_cases h : key = k
  · rw [if_pos h, h, List.lookup_cons_self]
  · rw [if_neg h, List.lookup_cons, beq_false_of_ne h]

theorem lookup_eq_none_of_not_mem {α : Type} {fields : List (String × α)} {key : String}
    (h : key ∉ fields.map (·.1)) : fields.lookup key = none :=
  List.lookup_eq_none_iff.mpr fun _ he =>
    bne_iff_ne.mpr fun heq => h (heq ▸ List.mem_map_of_mem he)

theorem mem_of_lookup {α : Type} {fields : List (String × α)} {key : String} {value : α}
    (h : fields.lookup key = some value) : (key, value) ∈ fields := by
  induction fields with
  | nil => contradiction
  | cons f rest ih =>
    obtain ⟨k, v⟩ := f
    rw [lookup_cons_eq_ite] at h
    split at h
    · next heq =>
      cases h
      exact heq ▸ List.mem_cons_self
    · exact List.mem_cons_of_mem _ (ih h)

theorem lookup_of_mem {α : Type} {fields : List (String × α)}
    (h : (fields.map (·.1)).Nodup) {key : String} {value : α} (hm : (key, value) ∈ fields) :
    fields.lookup key = some value := by
  induction fields with
  | nil => contradiction
  | cons f rest ih =>
    obtain ⟨k, v⟩ := f
    obtain ⟨hhead, htail⟩ := List.nodup_cons.mp h
    rw [lookup_cons_eq_ite]
    rcases List.mem_cons.mp hm with heq | hm
    · cases heq
      exact if_pos rfl
    · rw [if_neg fun heq : key = k => hhead (heq ▸ List.mem_map.mpr ⟨_, hm, rfl⟩)]
      exact ih htail hm

theorem lookup_insertField (key other : String) (value : Json) (fields : List (String × Json)) :
    (insertField key value fields).lookup other =
      if other = key then some value else fields.lookup other := by
  induction fields with
  | nil => exact lookup_cons_eq_ite ..
  | cons f rest ih =>
    obtain ⟨k, v⟩ := f
    rw [insertField]
    split
    · exact lookup_cons_eq_ite ..
    · split
      · next heq => rw [lookup_cons_eq_ite, lookup_cons_eq_ite, ← heq]; split <;> rfl
      · next hne =>
        rw [lookup_cons_eq_ite, lookup_cons_eq_ite, ih]
        by_cases h : other = k
        · rw [if_pos h, if_pos h, if_neg fun heq => hne (heq.symm.trans h)]
        · rw [if_neg h, if_neg h]

/-- Members of distinct keys are all found, in front of what was there before. -/
theorem lookup_insertAll {members : List (String × Json)} (h : (members.map (·.1)).Nodup)
    (fields : List (String × Json)) (key : String) :
    (insertAll members fields).lookup key = (members.lookup key).or (fields.lookup key) := by
  induction members generalizing fields with
  | nil => rfl
  | cons m members ih =>
    obtain ⟨k, v⟩ := m
    obtain ⟨hhead, htail⟩ := List.nodup_cons.mp h
    rw [insertAll_cons, ih htail, lookup_insertField, lookup_cons_eq_ite]
    by_cases hk : key = k
    · rw [hk, lookup_eq_none_of_not_mem hhead, if_pos rfl, if_pos rfl, Option.none_or,
        Option.some_or]
    · rw [if_neg hk, if_neg hk]

theorem lookup_propertiesOfList {entries : List (String × Json)}
    (h : (entries.map (·.1)).Nodup) (key : String) :
    (Properties.ofList entries).lookup key = entries.lookup key := by
  rw [show Properties.ofList entries = insertAll entries [] from rfl, lookup_insertAll h,
    List.lookup_nil, Option.or_none]

end PeekLock.Json
