import PeekLock.Decimal.Integer

/-!
# PeekLock.Settings.Node

What settings look like before they are settings: a tree of tables and
lists with scalars at the leaves.

A scalar remembers where it was written, so that a message can say so; a
list and a table that were read as a whole do too, but a table that was
put together from several places does not.

`overlay` lays one tree over another.  Tables are joined entry by entry,
and anything else replaces what was there.  What an entry that is put into
a table changes is fully described by `child?_put`.
-/

namespace PeekLock.Settings

/-- Where a value was written. -/
inductive Source where
  | file (name : String)
  | environment
  deriving DecidableEq, Repr, Inhabited

/-- What a source is called in a message. -/
def Source.text : Source → String
  | .file name => name
  | .environment => "the environment"

/-- A value that has no parts. -/
inductive Scalar where
  | null
  | bool (value : Bool)
  | integer (value : Int)
  | real (value : Float)
  | text (value : String)
  deriving DecidableEq, Inhabited

/-- A tree of settings. -/
inductive Node where
  | scalar (source? : Option Source) (value : Scalar)
  | list (source? : Option Source) (items : List Node)
  | table (source? : Option Source) (entries : List (String × Node))
  deriving Inhabited

namespace Node

/-- A null that was written nowhere. -/
def absent : Node := .scalar none .null

/-- The table without entries. -/
def empty : Node := .table none []

/-! ## Entries -/

/-- The value of a key in a list of entries. -/
def find (key : String) : List (String × Node) → Option Node
  | [] => none
  | (k, n) :: rest => if k = key then some n else find key rest

/-- Overwrites or appends an entry. -/
def store (key : String) (n : Node) : List (String × Node) → List (String × Node)
  | [] => [(key, n)]
  | (k, m) :: rest => if k = key then (k, n) :: rest else (k, m) :: store key n rest

theorem find_store (key other : String) (n : Node) (entries : List (String × Node)) :
    find other (store key n entries) = if other = key then some n else find other entries := by
  induction entries with
  | nil => simp only [store, find, eq_comm]
  | cons e rest ih =>
    obtain ⟨k, m⟩ := e
    by_cases hk : k = key
    · subst hk
      by_cases ho : other = k
      · simp [store, find, ho]
      · simp [store, find, ho, Ne.symm ho]
    · by_cases ho : other = key
      · subst ho
        simp [store, find, hk, ih]
      · simp only [store, hk, find, ih, ho, if_false]

/-- The entries of a table; anything else has none. -/
def entries : Node → List (String × Node)
  | .table _ entries => entries
  | _ => []

/-- The entry of a table. -/
def child? (n : Node) (key : String) : Option Node := find key n.entries

/-- A table with one entry more or overwritten.  What is no table becomes one,
and a table that was one keeps its source. -/
def put (n : Node) (key : String) (value : Node) : Node :=
  match n with
  | .table source? entries => .table source? (store key value entries)
  | _ => .table none [(key, value)]

theorem child?_put (n : Node) (key other : String) (value : Node) :
    (n.put key value).child? other = if other = key then some value else n.child? other := by
  cases n with
  | table source? entries => exact find_store key other value entries
  | scalar source? value => simp [put, child?, entries, find, eq_comm]
  | list source? items => simp [put, child?, entries, find, eq_comm]

/-! ## Overlays -/

/-- What a table is laid over: the table that is below, or an empty one. -/
def ground (below : Node) : Node :=
  match below with
  | .table source? entries => .table source? entries
  | _ => .empty

mutual

/-- Lays a tree over another one. -/
def overlay (below : Node) : Node → Node
  | .table _ entries => overlayEntries below.ground entries
  | .scalar source? value => .scalar source? value
  | .list source? items => .list source? items

/-- Lays entries over a table, one after the other. -/
def overlayEntries (below : Node) : List (String × Node) → Node
  | [] => below
  | (key, n) :: rest =>
    overlayEntries (below.put key (overlay ((below.child? key).getD absent) n)) rest

end

end Node

end PeekLock.Settings
