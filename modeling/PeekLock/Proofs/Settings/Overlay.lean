import PeekLock.Settings.Path

/-!
# PeekLock.Proofs.Settings.Overlay

What becomes of a setting when values are laid over a tree.

A setting is a key of a section, and both are tables on the way from the
root (`Node.setting?`).  A value that is laid there is found there.  It stays
while other paths are followed, as long as none of them leads to the
setting again, or to its section in any other way than by a key
(`Path.Spares`).  A path that leads on from the setting turns it into a
table or a list (`Node.setting?_placeAll`).

When each path leads to a setting, the others stay exactly as they are
(`Node.setting?_place_of_ne`), and a section that is a table stays one.
-/

namespace PeekLock.Settings

/-- A path does not lead to the setting, nor to its section as a whole or to an item of it. -/
def Path.Spares (p : Path) (name key : String) : Prop :=
  p.root = name → ∃ k rest, p.steps = .key k :: rest ∧ (k = key → rest ≠ [])

namespace Node

/-! ## Entries of distinct keys -/

section

variable {key : String} {n : Node} {entries entries' : List (String × Node)}

theorem find_eq_none_iff : find key entries = none ↔ key ∉ entries.map (·.1) := by
  induction entries with
  | nil => simp [find]
  | cons e rest ih =>
    by_cases hk : e.1 = key
    · simp [find, hk]
    · simp only [find, hk, if_false, ih, List.map_cons, List.mem_cons, Ne.symm hk, false_or]

/-- What is found is what is among the entries. -/
theorem find_eq_some_iff (hdistinct : (entries.map (·.1)).Nodup) :
    find key entries = some n ↔ (key, n) ∈ entries := by
  induction entries with
  | nil => simp [find]
  | cons e rest ih =>
    obtain ⟨k, m⟩ := e
    rw [List.map_cons, List.nodup_cons] at hdistinct
    by_cases hk : k = key
    · subst hk
      have hrest : (k, n) ∉ rest := fun h => hdistinct.1 (List.mem_map.mpr ⟨_, h, rfl⟩)
      simp only [find, if_true, Option.some.injEq, List.mem_cons, Prod.mk.injEq, true_and, hrest,
        or_false, eq_comm]
    · simp only [find, hk, if_false, ih hdistinct.2, List.mem_cons, Prod.mk.injEq, Ne.symm hk,
        false_and, false_or]

/-- So their order does not matter. -/
theorem find_perm (hdistinct : (entries.map (·.1)).Nodup) (hperm : entries'.Perm entries) :
    find key entries' = find key entries := by
  have hdistinct' : (entries'.map (·.1)).Nodup := (hperm.map _).nodup_iff.mpr hdistinct
  ext n
  rw [find_eq_some_iff hdistinct', find_eq_some_iff hdistinct, hperm.mem_iff]

end

/-! ## Settings -/

variable {root n m : Node} {name key : String} {p : Path}

/-- The value of a key of a section. -/
def setting? (root : Node) (name key : String) : Option Node :=
  (root.child? name).bind (·.child? key)

/-- A node with parts. -/
def IsCompound : Node → Prop
  | .scalar .. => False
  | .list .. => True
  | .table .. => True

theorem setting?_eq (root : Node) (name key : String) :
    root.setting? name key = ((root.child? name).getD absent).child? key := by
  unfold setting?
  cases root.child? name <;> rfl

theorem child?_place (root : Node) (p : Path) (value : Node) (name : String) :
    (root.place p value).child? name = if name = p.root then
      some (change (·.overlay value) p.steps ((root.child? p.root).getD absent))
    else root.child? name := by
  rw [place, change, child?_put]

/-- Whatever is behind a step has parts. -/
theorem isCompound_change (f : Node → Node) (step : Step) (steps : List Step) (n : Node) :
    (change f (step :: steps) n).IsCompound := by
  cases step with
  | key k => cases n <;> trivial
  | index i => trivial

/-- A value that is laid over a setting is found there. -/
theorem setting?_place_self (root : Node) (name key : String) (value : Node) :
    (root.place ⟨name, [.key key]⟩ value).setting? name key =
      some (((root.setting? name key).getD absent).overlay value) := by
  rw [setting?_eq, child?_place, if_pos rfl, Option.getD_some, change, child?_put, if_pos rfl,
    change, ← setting?_eq]

/-- A value that is laid over another setting changes nothing. -/
theorem setting?_place_of_ne {name' key' : String} (h : name' = name → key' ≠ key) (root : Node)
    (value : Node) :
    (root.place ⟨name', [.key key']⟩ value).setting? name key = root.setting? name key := by
  rw [setting?_eq, child?_place]
  by_cases hname : name = name'
  · subst hname
    rw [if_pos rfl, Option.getD_some, change, child?_put, if_neg (Ne.symm (h rfl)), ← setting?_eq]
  · rw [if_neg hname, ← setting?_eq]

/-- A setting that is spared stays as it is, or comes to have parts. -/
theorem setting?_place (hm : root.setting? name key = some m) (hp : p.Spares name key)
    (value : Node) : ∃ m', (root.place p value).setting? name key = some m' ∧
      (m' = m ∨ m'.IsCompound) := by
  by_cases hroot : p.root = name
  · obtain ⟨k, rest, hsteps, hrest⟩ := hp hroot
    subst hroot
    rw [setting?_eq] at hm
    rw [setting?_eq, child?_place, if_pos rfl, Option.getD_some, hsteps, change, child?_put]
    by_cases hk : key = k
    · obtain ⟨step, more, rfl⟩ := List.exists_cons_of_ne_nil (hrest hk.symm)
      exact ⟨_, if_pos hk, .inr (isCompound_change ..)⟩
    · exact ⟨m, (if_neg hk).trans hm, .inl rfl⟩
  · refine ⟨m, ?_, .inl rfl⟩
    rw [setting?_eq, child?_place, if_neg (Ne.symm hroot), ← setting?_eq, hm]

/-- So it does while any number of values are laid over the tree. -/
theorem setting?_placeAll {entries : List (String × Node)} (hm : root.setting? name key = some m)
    (hall : ∀ e ∈ entries, (Path.ofText e.1).Spares name key) :
    ∃ m', (root.placeAll entries).setting? name key = some m' ∧ (m' = m ∨ m'.IsCompound) := by
  induction entries generalizing root m with
  | nil => exact ⟨m, hm, .inl rfl⟩
  | cons e rest ih =>
    obtain ⟨m₁, hm₁, hor₁⟩ := setting?_place hm (hall e List.mem_cons_self) e.2
    obtain ⟨m₂, hm₂, hor₂⟩ := ih hm₁ fun e' he' => hall e' (List.mem_cons_of_mem e he')
    refine ⟨m₂, hm₂, ?_⟩
    obtain rfl | hcompound := hor₂
    · exact hor₁
    · exact .inr hcompound

/-! ## Sections -/

/-- A node that is a table. -/
def IsTable : Node → Prop
  | .table .. => True
  | _ => False

instance : (n : Node) → Decidable n.IsTable
  | .table .. => .isTrue trivial
  | .scalar .. | .list .. => .isFalse id

/-- A section is a table, or there is none. -/
def HasSection (root : Node) (name : String) : Prop := ∀ n ∈ root.child? name, n.IsTable

instance (root : Node) (name : String) : Decidable (root.HasSection name) :=
  inferInstanceAs (Decidable (∀ n ∈ root.child? name, n.IsTable))

theorem isTable_put (n : Node) (key : String) (value : Node) : (n.put key value).IsTable := by
  cases n <;> trivial

theorem isTable_ground (n : Node) : n.ground.IsTable := by
  cases n <;> trivial

theorem isTable_overlayEntries {below : Node} (h : below.IsTable)
    (entries : List (String × Node)) : (overlayEntries below entries).IsTable := by
  induction entries generalizing below with
  | nil => exact h
  | cons e rest ih => exact ih (isTable_put ..)

/-- What a table is laid over becomes a table. -/
theorem IsTable.overlay (h : n.IsTable) (below : Node) : (below.overlay n).IsTable := by
  cases n with
  | table source? entries => exact isTable_overlayEntries (isTable_ground below) entries
  | scalar source? value => exact h.elim
  | list source? items => exact h.elim

/-- It is one still when a setting of any section is laid over it, -/
theorem HasSection.place_setting (h : root.HasSection name) (name' key : String) (value : Node) :
    (root.place ⟨name', [.key key]⟩ value).HasSection name := by
  intro n hn
  rw [child?_place] at hn
  split at hn
  · cases hn
    exact isTable_put ..
  · exact h n hn

/-- and when a whole section is, if that is a table. -/
theorem HasSection.place_section {value : Node} (h : root.HasSection name) (name' : String)
    (htable : name' = name → value.IsTable) : (root.place ⟨name', []⟩ value).HasSection name := by
  intro n hn
  rw [child?_place] at hn
  split at hn
  · next hname =>
    cases hn
    exact (htable hname.symm).overlay _
  · exact h n hn

end Node

end PeekLock.Settings
