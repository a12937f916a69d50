import PeekLock.Proofs.Settings.Overlay
import PeekLock.Settings.FromNode

/-!
# PeekLock.Proofs.Settings.Sections

What is read of one setting in a section.

The settings of a section are read one after the other, and each is kept in
a part of its own (`Entry.Spares`).  So what is in such a part at the end is
what was read for its setting (`readTable_mem`), and nothing if the table
does not have it (`readTable_not_mem`).  Nothing else of a table matters
(`readTable_congr`).
-/

namespace PeekLock.Settings

theorem exists_ok_of_bind {ε α β : Type} {x : Except ε α} {f : α → Except ε β} {b : β}
    (h : x >>= f = .ok b) : ∃ a, x = .ok a ∧ f a = .ok b := by
  cases x with
  | error e => cases h
  | ok a => exact ⟨a, rfl, h⟩

/-- Reading the setting leaves a part of the section alone. -/
def Entry.Spares {σ β : Type} (f : Entry σ) (part : σ → β) : Prop :=
  ∀ s n s', f.read s n = .ok s' → part s' = part s

section

variable {σ α β : Type} {key name : String} {convert : Node → Except Refusal α}
  {keep : σ → Option α → σ} {part : σ → β} {f : Entry σ} {fields : List (Entry σ)}
  {entries : List (String × Node)} {shape : Shape σ} {root n : Node} {s s' : σ}

/-- A setting is read by converting its value and keeping it. -/
theorem Entry.of_read_eq_ok (h : (Entry.of key convert keep).read s n = .ok s') :
    ∃ v, unlessNull convert n = .ok v ∧ s' = keep s v := by
  simp only [Entry.of] at h
  cases hv : unlessNull convert n with
  | error r =>
    rw [hv] at h
    cases h
  | ok v =>
    rw [hv] at h
    cases h
    exact ⟨v, rfl, rfl⟩

@[simp] theorem Entry.key_of (key : String) (convert : Node → Except Refusal α)
    (keep : σ → Option α → σ) : (Entry.of key convert keep).key = key := rfl

theorem Entry.spares_of (h : ∀ s v, part (keep s v) = part s) :
    (Entry.of key convert keep).Spares part := by
  intro s n s' hr
  obtain ⟨v, -, rfl⟩ := of_read_eq_ok hr
  exact h s v

/-- Reading a table goes from setting to setting. -/
theorem readTable_cons (h : readTable key entries (f :: fields) s = .ok s') :
    ∃ s₁, readTable key entries fields s₁ = .ok s' ∧
      ((Node.find f.key entries = none ∧ s₁ = s) ∨
        ∃ n, Node.find f.key entries = some n ∧ f.read s n = .ok s₁) := by
  rw [readTable] at h
  split at h
  · next hfind => exact ⟨s, h, .inl ⟨hfind, rfl⟩⟩
  · next n hfind =>
    split at h
    · next s₁ hread => exact ⟨s₁, h, .inr ⟨n, hfind, hread⟩⟩
    · contradiction

/-- What all settings leave alone stays as it is. -/
theorem readTable_spares (h : readTable key entries fields s = .ok s')
    (hall : ∀ f ∈ fields, f.Spares part) : part s' = part s := by
  induction fields generalizing s with
  | nil =>
    cases h
    rfl
  | cons f rest ih =>
    obtain ⟨s₁, hrest, ⟨-, rfl⟩ | ⟨n, -, hread⟩⟩ := readTable_cons h
    · exact ih hrest fun g hg => hall g (List.mem_cons_of_mem f hg)
    · rw [ih hrest fun g hg => hall g (List.mem_cons_of_mem f hg)]
      exact hall f List.mem_cons_self _ _ _ hread

/-- **One setting**: what is in its part at the end is what was read for it. -/
theorem readTable_mem (h : readTable key entries fields s = .ok s') (hf : f ∈ fields)
    (hdistinct : (fields.map (·.key)).Nodup)
    (hothers : ∀ g ∈ fields, g.key ≠ f.key → g.Spares part)
    (hfind : Node.find f.key entries = some n) :
    ∃ s₁ s₂, f.read s₁ n = .ok s₂ ∧ part s' = part s₂ := by
  induction fields generalizing s with
  | nil => contradiction
  | cons g rest ih =>
    rw [List.map_cons, List.nodup_cons] at hdistinct
    obtain ⟨hg, hdistinct⟩ := hdistinct
    have hbehind : ∀ k ∈ rest, k.key ≠ f.key → k.Spares part :=
      fun k hk => hothers k (List.mem_cons_of_mem g hk)
    obtain ⟨s₁, hrest, hhead⟩ := readTable_cons h
    obtain rfl | hf := List.mem_cons.mp hf
    · obtain ⟨hnone, -⟩ | ⟨n', hsome, hread⟩ := hhead
      · cases hnone.symm.trans hfind
      · cases hsome.symm.trans hfind
        refine ⟨s, s₁, hread, readTable_spares hrest fun k hk => hbehind k hk fun he => hg ?_⟩
        exact he ▸ List.mem_map_of_mem hk
    · exact ih hrest hf hdistinct hbehind

/-- A setting that the table does not have is not read. -/
theorem readTable_not_mem {k : String} (h : readTable key entries fields s = .ok s')
    (hothers : ∀ g ∈ fields, g.key ≠ k → g.Spares part) (hfind : Node.find k entries = none) :
    part s' = part s := by
  induction fields generalizing s with
  | nil =>
    cases h
    rfl
  | cons f rest ih =>
    have hbehind := fun g hg => hothers g (List.mem_cons_of_mem f hg)
    obtain ⟨s₁, hrest, ⟨-, rfl⟩ | ⟨n, hn, hread⟩⟩ := readTable_cons h
    · exact ih hrest hbehind
    · have hne : f.key ≠ k := fun he => nomatch (he ▸ hn).symm.trans hfind
      rw [ih hrest hbehind]
      exact hothers f List.mem_cons_self hne _ _ _ hread

/-- Tables that agree on the settings of a section are read alike. -/
theorem readTable_congr {entries' : List (String × Node)}
    (h : ∀ f ∈ fields, Node.find f.key entries' = Node.find f.key entries) (s : σ) :
    readTable key entries' fields s = readTable key entries fields s := by
  induction fields generalizing s with
  | nil => rfl
  | cons f rest ih =>
    have hbehind := fun g hg => h g (List.mem_cons_of_mem f hg)
    rw [readTable, readTable, h f List.mem_cons_self]
    split
    · exact ih hbehind s
    · split
      · exact ih hbehind _
      · rfl

theorem readTable_nil (key : String) (fields : List (Entry σ)) (s : σ) :
    readTable key [] fields s = .ok s := by
  induction fields with
  | nil => rfl
  | cons f rest ih => exact ih

/-- A section with a key in it is a table. -/
theorem section?_eq_readTable (h : section? shape name root s = .ok s')
    (hn : root.setting? name key = some n) : ∃ entries,
      readTable name entries shape.fields s = .ok s' ∧ Node.find key entries = some n := by
  rw [Node.setting?_eq] at hn
  unfold section? at h
  split at h
  · next hnone =>
    rw [hnone] at hn
    cases hn
  · next source? entries hsome =>
    rw [hsome] at hn
    exact ⟨entries, h, hn⟩
  · next source? items hsome =>
    rw [hsome] at hn
    cases hn
  · contradiction

/-- A section that is missing is read like an empty table. -/
theorem section?_eq_of_hasSection (h : root.HasSection name) (shape : Shape σ) :
    ∀ s, section? shape name root s =
      readTable name ((root.child? name).getD .absent).entries shape.fields s := by
  intro s
  unfold section?
  cases hchild : root.child? name with
  | none => exact (readTable_nil ..).symm
  | some n =>
    cases n with
    | table source? entries => rfl
    | scalar source? value => exact (h _ hchild).elim
    | list source? items => exact (h _ hchild).elim

/-- Trees that agree on the settings of a section are read alike. -/
theorem section?_congr {root' : Node} (h : root.HasSection name) (h' : root'.HasSection name)
    (heq : ∀ f ∈ shape.fields, root'.setting? name f.key = root.setting? name f.key) :
    ∀ s, section? shape name root' s = section? shape name root s := by
  intro s
  rw [section?_eq_of_hasSection h, section?_eq_of_hasSection h']
  refine readTable_congr (fun f hf => ?_) s
  have hf := heq f hf
  rwa [Node.setting?_eq, Node.setting?_eq] at hf

end

/-- The settings of a section are told apart by their keys, and a part that one of them is kept
in is left alone by the others. -/
structure Shape.Keeps {σ α : Type} (shape : Shape σ) (key : String)
    (convert : Node → Except Refusal α) (part : σ → Option α) : Prop where
  distinct : (shape.fields.map (·.key)).Nodup
  kept : ∃ keep, Entry.of key convert keep ∈ shape.fields ∧ ∀ s v, part (keep s v) = v
  others : ∀ g ∈ shape.fields, g.key ≠ key → g.Spares part

/-- A setting by its place among those of its section. -/
theorem Shape.keeps {σ α : Type} (shape : Shape σ) (part : σ → Option α) (i : Nat) {key : String}
    {convert : Node → Except Refusal α} {keep : σ → Option α → σ}
    (hi : shape.fields[i]? = some (Entry.of key convert keep))
    (hdistinct : (shape.fields.map (·.key)).Nodup) (hkeep : ∀ s v, part (keep s v) = v)
    (hothers : ∀ g ∈ shape.fields, g.key ≠ key → g.Spares part) :
    shape.Keeps key convert part :=
  ⟨hdistinct, ⟨keep, List.mem_of_getElem? hi, hkeep⟩, hothers⟩

/-- What is read of a setting of a section is its value, converted. -/
theorem Shape.Keeps.part_eq {σ α : Type} {shape : Shape σ} {name key : String} {root n : Node}
    {convert : Node → Except Refusal α} {part : σ → Option α} {s s' : σ}
    (hkeeps : shape.Keeps key convert part) (h : section? shape name root s = .ok s')
    (hn : root.setting? name key = some n) : unlessNull convert n = .ok (part s') := by
  obtain ⟨keep, hmem, hkeep⟩ := hkeeps.kept
  obtain ⟨entries, htable, hfind⟩ := section?_eq_readTable h hn
  obtain ⟨s₁, s₂, hread, hpart⟩ :=
    readTable_mem htable hmem hkeeps.distinct hkeeps.others hfind
  obtain ⟨v, hv, rfl⟩ := Entry.of_read_eq_ok hread
  rw [hpart, hkeep, hv]

/-- Nothing is read of a setting that is missing. -/
theorem Shape.Keeps.part_eq_of_none {σ α : Type} {shape : Shape σ} {name key : String}
    {root : Node} {convert : Node → Except Refusal α} {part : σ → Option α} {s s' : σ}
    (hkeeps : shape.Keeps key convert part) (h : section? shape name root s = .ok s')
    (hroot : root.HasSection name) (hn : root.setting? name key = none) : part s' = part s := by
  rw [section?_eq_of_hasSection hroot] at h
  rw [Node.setting?_eq] at hn
  exact readTable_not_mem h hkeeps.others hn

/-- Each section of the settings is read at its name. -/
structure ReadFrom (root : Node) (s : Settings) : Prop where
  app : section? appShape "app" root {} = .ok s.app
  bus : section? busShape "servicebus" root {} = .ok s.bus
  logging : section? loggingShape "logging" root {} = .ok s.logging
  retry : section? retryShape "retry" root {} = .ok s.retry

/-- The sections are read one by one. -/
theorem readFrom_of_ofNode {root : Node} {s : Settings} (h : ofNode root = .ok s) :
    s.ReadFrom root := by
  obtain ⟨app, happ, h⟩ := exists_ok_of_bind h
  obtain ⟨bus, hbus, h⟩ := exists_ok_of_bind h
  obtain ⟨logging, hlogging, h⟩ := exists_ok_of_bind h
  obtain ⟨retry, hretry, h⟩ := exists_ok_of_bind h
  cases h
  exact ⟨happ, hbus, hlogging, hretry⟩

/-- A part of the settings holds what is read at a place of the tree, and nothing if there is
nothing. -/
structure ReadAt {α : Type} (name key : String) (convert : Node → Except Refusal α)
    (part : Settings → Option α) : Prop where
  value : ∀ {root n s}, ofNode root = .ok s → root.setting? name key = some n →
    unlessNull convert n = .ok (part s)
  nothing : ∀ {root s}, ofNode root = .ok s → root.HasSection name →
    root.setting? name key = none → part s = none

/-- So does the part that its section keeps a setting in. -/
theorem ReadAt.of_section {σ α : Type} {shape : Shape σ} {name key : String}
    {convert : Node → Except Refusal α} {sectionOf : Settings → σ} {part : σ → Option α} {s₀ : σ}
    (hsection : ∀ {root s}, s.ReadFrom root → section? shape name root s₀ = .ok (sectionOf s))
    (hkeeps : shape.Keeps key convert part) (hpart : part s₀ = none) :
    ReadAt name key convert fun s => part (sectionOf s) where
  value hs hn := hkeeps.part_eq (hsection (readFrom_of_ofNode hs)) hn
  nothing hs hroot hn :=
    (hkeeps.part_eq_of_none (hsection (readFrom_of_ofNode hs)) hroot hn).trans hpart

end PeekLock.Settings
