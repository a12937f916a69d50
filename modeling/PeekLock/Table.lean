/-!
# PeekLock.Table

Finite maps as lists of entries, in the order in which the keys came in.

`put` overwrites the entry of its key where it stands and appends a new
key at the end; `remove` drops it.  Everything else about a table follows
from what these two do to `get?`.
-/

namespace PeekLock

/-- A finite map from `κ` to `α`. -/
structure Table (κ α : Type) where
  entries : List (κ × α)
  deriving DecidableEq, Repr

namespace Table

variable {κ α : Type} [DecidableEq κ]

instance : Inhabited (Table κ α) := ⟨⟨[]⟩⟩

/-- The table without entries. -/
def empty : Table κ α := ⟨[]⟩

/-- The value of a key in a list of entries. -/
def lookup (key : κ) : List (κ × α) → Option α
  | [] => none
  | (k, a) :: rest => if k = key then some a else lookup key rest

/-- Overwrites or appends an entry. -/
def write (key : κ) (a : α) : List (κ × α) → List (κ × α)
  | [] => [(key, a)]
  | (k, b) :: rest => if k = key then (k, a) :: rest else (k, b) :: write key a rest

/-- The value of a key. -/
def get? (t : Table κ α) (key : κ) : Option α := lookup key t.entries

/-- The value of a key, or a default. -/
def getD (t : Table κ α) (key : κ) (default : α) : α := (t.get? key).getD default

/-- Gives a key a value. -/
def put (t : Table κ α) (key : κ) (a : α) : Table κ α := ⟨write key a t.entries⟩

/-- Drops a key. -/
def remove (t : Table κ α) (key : κ) : Table κ α := ⟨t.entries.filter (·.1 ≠ key)⟩

/-- The number of entries. -/
def size (t : Table κ α) : Nat := t.entries.length

/-- The table of some entries; of two with one key the later wins. -/
def ofList (entries : List (κ × α)) : Table κ α := entries.foldl (fun t e => t.put e.1 e.2) empty

@[simp] theorem get?_empty (key : κ) : (empty : Table κ α).get? key = none := rfl

theorem lookup_write (key other : κ) (a : α) (entries : List (κ × α)) :
    lookup other (write key a entries) = if other = key then some a else lookup other entries := by
  induction entries with
  | nil => simp only [write, lookup, eq_comm]
  | cons e rest ih =>
    obtain ⟨k, b⟩ := e
    by_cases hk : k = key
    · subst hk
      by_cases ho : other = k
      · simp [write, lookup, ho]
      · simp [write, lookup, ho, Ne.symm ho]
    · by_cases ho : other = key
      · subst ho
        simp [write, lookup, hk, ih]
      · simp only [write, hk, lookup, ih, ho, if_false]

@[simp] theorem get?_put (t : Table κ α) (key other : κ) (a : α) :
    (t.put key a).get? other = if other = key then some a else t.get? other :=
  lookup_write key other a t.entries

theorem getD_put (t : Table κ α) (key other : κ) (a default : α) :
    (t.put key a).getD other default = if other = key then a else t.getD other default := by
  unfold getD
  rw [get?_put]
  split <;> rfl

@[simp] theorem get?_remove (t : Table κ α) (key other : κ) :
    (t.remove key).get? other = if other = key then none else t.get? other := by
  obtain ⟨entries⟩ := t
  simp only [remove, get?]
  induction entries with
  | nil => simp [lookup]
  | cons e rest ih =>
    obtain ⟨k, b⟩ := e
    by_cases hk : k = key
    · subst hk
      by_cases ho : other = k
      · subst ho; simpa using ih
      · simpa [lookup, ho, Ne.symm ho] using ih
    · by_cases ho : other = key
      · subst ho
        simpa [lookup, hk] using ih
      · by_cases hko : k = other <;> simp_all [lookup]

end Table

end PeekLock
