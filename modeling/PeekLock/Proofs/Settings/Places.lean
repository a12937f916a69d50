import PeekLock.Proofs.Settings.Variables

/-!
# PeekLock.Proofs.Settings.Places

All settings, by their places in the tree.

Each setting has a section and a key, and no two have the same.  Where the
sections are tables, the settings that a tree holds depend on what is at
these places only (`Setting.ofNode_congr`), and each depends on its own
(`Setting.given_of_ofNode`).  Values that are laid over settings do not get
into each other's way (`Setting.setting?_placeAll`).
-/

namespace PeekLock

open Settings

/-- The kinds of values that settings have. -/
inductive Setting.Kind where
  | text
  | signed
  | unsigned
  | unsigned32
  | real
  deriving DecidableEq, Repr

namespace Setting.Kind

/-- The values of a kind. -/
def Value : Kind → Type
  | text => String
  | signed => Int
  | unsigned | unsigned32 => Nat
  | real => Float

/-- How a value of a kind is made of a node. -/
def convert : (k : Kind) → Node → Except Refusal k.Value
  | text => textOf
  | signed => signedOf
  | unsigned => unsignedOf
  | unsigned32 => unsigned32Of
  | real => realOf

end Setting.Kind

/-- All settings: those that hold a text, and the others. -/
inductive Setting where
  | text (t : TextSetting)
  | concurrency
  | maxMessages
  | receiveTimeoutSecs
  | shutdownTimeoutSecs
  | receiveErrorBackoffMs
  | maxAttempts
  | initialDelayMs
  | maxDelayMs
  | multiplier
  deriving DecidableEq, Repr

namespace Setting

/-- The section of a setting. -/
def name : Setting → String
  | text t => t.name
  | concurrency | maxMessages | receiveTimeoutSecs | shutdownTimeoutSecs
  | receiveErrorBackoffMs => "servicebus"
  | maxAttempts | initialDelayMs | maxDelayMs | multiplier => "retry"

/-- The key of a setting in its section. -/
def key : Setting → String
  | text t => t.key
  | concurrency => "concurrency"
  | maxMessages => "max_messages"
  | receiveTimeoutSecs => "receive_timeout_secs"
  | shutdownTimeoutSecs => "shutdown_timeout_secs"
  | receiveErrorBackoffMs => "receive_error_backoff_ms"
  | maxAttempts => "max_attempts"
  | initialDelayMs => "initial_delay_ms"
  | maxDelayMs => "max_delay_ms"
  | multiplier => "multiplier"

/-- The path that leads to a setting, as it is written. -/
def path (t : Setting) : String := t.name ++ "." ++ t.key

/-- The variable that a setting is given by. -/
def variableName : Setting → String
  | text t => t.variableName
  | concurrency => "SERVICEKIT__SERVICEBUS__CONCURRENCY"
  | maxMessages => "SERVICEKIT__SERVICEBUS__MAX_MESSAGES"
  | receiveTimeoutSecs => "SERVICEKIT__SERVICEBUS__RECEIVE_TIMEOUT_SECS"
  | shutdownTimeoutSecs => "SERVICEKIT__SERVICEBUS__SHUTDOWN_TIMEOUT_SECS"
  | receiveErrorBackoffMs => "SERVICEKIT__SERVICEBUS__RECEIVE_ERROR_BACKOFF_MS"
  | maxAttempts => "SERVICEKIT__RETRY__MAX_ATTEMPTS"
  | initialDelayMs => "SERVICEKIT__RETRY__INITIAL_DELAY_MS"
  | maxDelayMs => "SERVICEKIT__RETRY__MAX_DELAY_MS"
  | multiplier => "SERVICEKIT__RETRY__MULTIPLIER"

/-- What a setting takes. -/
def kind : Setting → Kind
  | text _ => .text
  | concurrency | maxMessages => .signed
  | receiveTimeoutSecs | shutdownTimeoutSecs | receiveErrorBackoffMs => .unsigned
  | maxAttempts => .unsigned32
  | initialDelayMs | maxDelayMs => .unsigned
  | multiplier => .real

/-- What is kept for a setting. -/
def raw (s : Settings) : (t : Setting) → Option t.kind.Value
  | text t => t.raw s
  | concurrency => s.bus.concurrency?
  | maxMessages => s.bus.maxMessages?
  | receiveTimeoutSecs => s.bus.receiveTimeoutSecs?
  | shutdownTimeoutSecs => s.bus.shutdownTimeoutSecs?
  | receiveErrorBackoffMs => s.bus.receiveErrorBackoffMs?
  | maxAttempts => s.retry.maxAttempts?
  | initialDelayMs => s.retry.initialDelayMs?
  | maxDelayMs => s.retry.maxDelayMs?
  | multiplier => s.retry.multiplier?

theorem key?_variableName (t : Setting) : Environment.key? t.variableName = some t.path := by
  cases t with
  | text t => exact t.key?_variableName
  | _ => decide +kernel

theorem ofText_path (t : Setting) : Path.ofText t.path = ⟨t.name, [.key t.key]⟩ := by
  cases t with
  | text t => exact t.ofText_path
  | _ => decide +kernel

/-- A section and a key tell which setting it is. -/
theorem eq_of_place {t u : Setting} (hname : u.name = t.name) (hkey : u.key = t.key) : u = t := by
  revert hname hkey
  cases t with
  | text t =>
    cases u with
    | text u => exact fun hname hkey => congrArg text (TextSetting.eq_of_place hname hkey)
    | _ => cases t <;> decide
  | _ =>
    cases u with
    | text u => cases u <;> decide
    | _ => decide

/-- So does its path. -/
theorem path_injective {t u : Setting} (h : u.path = t.path) : u = t := by
  have hplace := congrArg Path.ofText h
  rw [ofText_path, ofText_path, Settings.Path.mk.injEq, List.singleton_inj,
    Step.key.injEq] at hplace
  exact eq_of_place hplace.1 hplace.2

/-- What is kept for a setting is what is read at its place. -/
theorem readAt (t : Setting) : ReadAt t.name t.key t.kind.convert fun s => t.raw s := by
  have hdistinct : (busShape.fields.map (·.key)).Nodup ∧ (retryShape.fields.map (·.key)).Nodup := by
    decide
  obtain ⟨hinBus, hinRetry⟩ := hdistinct
  cases t with
  | text t => exact t.readAt
  | concurrency =>
    exact .of_section (·.bus) (busShape.keeps (·.concurrency?) 4 rfl hinBus (fun _ _ => rfl)
      (by simp [busShape, Entry.spares_of])) rfl
  | maxMessages =>
    exact .of_section (·.bus) (busShape.keeps (·.maxMessages?) 5 rfl hinBus (fun _ _ => rfl)
      (by simp [busShape, Entry.spares_of])) rfl
  | receiveTimeoutSecs =>
    exact .of_section (·.bus) (busShape.keeps (·.receiveTimeoutSecs?) 6 rfl hinBus (fun _ _ => rfl)
      (by simp [busShape, Entry.spares_of])) rfl
  | shutdownTimeoutSecs =>
    exact .of_section (·.bus) (busShape.keeps (·.shutdownTimeoutSecs?) 7 rfl hinBus
      (fun _ _ => rfl) (by simp [busShape, Entry.spares_of])) rfl
  | receiveErrorBackoffMs =>
    exact .of_section (·.bus) (busShape.keeps (·.receiveErrorBackoffMs?) 8 rfl hinBus
      (fun _ _ => rfl) (by simp [busShape, Entry.spares_of])) rfl
  | maxAttempts =>
    exact .of_section (·.retry) (retryShape.keeps (·.maxAttempts?) 0 rfl hinRetry (fun _ _ => rfl)
      (by simp [retryShape, Entry.spares_of])) rfl
  | initialDelayMs =>
    exact .of_section (·.retry) (retryShape.keeps (·.initialDelayMs?) 1 rfl hinRetry
      (fun _ _ => rfl) (by simp [retryShape, Entry.spares_of])) rfl
  | maxDelayMs =>
    exact .of_section (·.retry) (retryShape.keeps (·.maxDelayMs?) 2 rfl hinRetry (fun _ _ => rfl)
      (by simp [retryShape, Entry.spares_of])) rfl
  | multiplier =>
    exact .of_section (·.retry) (retryShape.keeps (·.multiplier?) 3 rfl hinRetry (fun _ _ => rfl)
      (by simp [retryShape, Entry.spares_of])) rfl

/-- What a tree gives a setting: the value at its place, converted.  That is nothing where the tree
has nothing there, or null. -/
def given (root : Node) (t : Setting) : Except Refusal (Option t.kind.Value) :=
  match root.setting? t.name t.key with
  | none => .ok none
  | some n => unlessNull t.kind.convert n

/-- This is what is kept for the setting. -/
theorem given_of_ofNode {t : Setting} {root : Node} {s : Settings} (hroot : root.HasSection t.name)
    (hs : ofNode root = .ok s) : t.given root = .ok (t.raw s) := by
  unfold given
  split
  · next hnone => rw [t.readAt.nothing hs hroot hnone]
  · next n hsome => exact t.readAt.value hs hsome

end Setting

/-! ## Trees with sections -/

namespace Settings

/-- The names of the sections. -/
def sectionNames : List String := ["app", "servicebus", "logging", "retry"]

/-- Each section is a table, or there is none. -/
def Node.Sectioned (root : Node) : Prop := ∀ name ∈ sectionNames, root.HasSection name

instance (root : Node) : Decidable root.Sectioned :=
  inferInstanceAs (Decidable (∀ name ∈ sectionNames, root.HasSection name))

/-- The keys of a file are names, and its sections are tables. -/
structure Node.Plain (file : Node) : Prop where
  names : ∀ e ∈ file.entries, Path.ofText e.1 = ⟨e.1, []⟩
  tables : ∀ e ∈ file.entries, e.1 ∈ sectionNames → e.2.IsTable

instance (file : Node) : Decidable file.Plain :=
  decidable_of_iff ((∀ e ∈ file.entries, Path.ofText e.1 = ⟨e.1, []⟩) ∧
    ∀ e ∈ file.entries, e.1 ∈ sectionNames → e.2.IsTable)
    ⟨fun h => ⟨h.1, h.2⟩, fun h => ⟨h.names, h.tables⟩⟩

theorem Node.sectioned_placeAll {entries : List (String × Node)} {root : Node}
    (hnames : ∀ e ∈ entries, Path.ofText e.1 = ⟨e.1, []⟩)
    (htables : ∀ e ∈ entries, e.1 ∈ sectionNames → e.2.IsTable) (h : root.Sectioned) :
    (root.placeAll entries).Sectioned := by
  induction entries generalizing root with
  | nil => exact h
  | cons e rest ih =>
    obtain ⟨he, hnames⟩ := List.forall_mem_cons.mp hnames
    obtain ⟨htable, htables⟩ := List.forall_mem_cons.mp htables
    refine ih hnames htables fun name hname => ?_
    have hplaced := (h name hname).place_section e.1 fun heq => htable (heq ▸ hname)
    rwa [← he] at hplaced

/-- The tree of such a file has sections. -/
theorem exists_tree_of_plain {files : Files} {path? : Option String} {file : Node}
    (hfile : fromFile files path? = .ok file) (hplain : file.Plain) :
    ∃ root, tree files [] path? = .ok root ∧ root.Sectioned := by
  refine ⟨Node.empty.placeAll file.entries, ?_, ?_⟩
  · rw [tree, hfile]
    rfl
  · have hempty : Node.empty.Sectioned := by decide
    exact Node.sectioned_placeAll hplain.names hplain.tables hempty

end Settings

namespace Setting

theorem name_mem_sectionNames (t : Setting) : t.name ∈ sectionNames := by
  cases t with
  | text t => cases t <;> decide
  | _ => decide

/-- Every field of a section is a setting. -/
theorem exists_of_mem_fields :
    (∀ f ∈ appShape.fields, ∃ t : Setting, t.name = "app" ∧ t.key = f.key) ∧
      (∀ f ∈ busShape.fields, ∃ t : Setting, t.name = "servicebus" ∧ t.key = f.key) ∧
      (∀ f ∈ loggingShape.fields, ∃ t : Setting, t.name = "logging" ∧ t.key = f.key) ∧
      ∀ f ∈ retryShape.fields, ∃ t : Setting, t.name = "retry" ∧ t.key = f.key := by
  simp only [appShape, busShape, loggingShape, retryShape, List.forall_mem_cons, Entry.key_of,
    List.not_mem_nil, false_implies, implies_true, and_true]
  exact ⟨⟨⟨text .appName, rfl, rfl⟩, ⟨text .appVersion, rfl, rfl⟩,
      ⟨text .appEnvironment, rfl, rfl⟩⟩,
    ⟨⟨text .connectionString, rfl, rfl⟩, ⟨text .queue, rfl, rfl⟩, ⟨text .topic, rfl, rfl⟩,
      ⟨text .subscription, rfl, rfl⟩, ⟨concurrency, rfl, rfl⟩, ⟨maxMessages, rfl, rfl⟩,
      ⟨receiveTimeoutSecs, rfl, rfl⟩, ⟨shutdownTimeoutSecs, rfl, rfl⟩,
      ⟨receiveErrorBackoffMs, rfl, rfl⟩⟩,
    ⟨⟨text .logLevel, rfl, rfl⟩, ⟨text .logFile, rfl, rfl⟩⟩,
    ⟨maxAttempts, rfl, rfl⟩, ⟨initialDelayMs, rfl, rfl⟩, ⟨maxDelayMs, rfl, rfl⟩,
    ⟨multiplier, rfl, rfl⟩⟩

/-- What is kept for a setting depends on its place in the tree only. -/
theorem raw_eq_of_setting?_eq {t : Setting} {root root' : Node} {s s' : Settings}
    (h : root.Sectioned) (h' : root'.Sectioned)
    (heq : root'.setting? t.name t.key = root.setting? t.name t.key) (hs : ofNode root = .ok s)
    (hs' : ofNode root' = .ok s') : t.raw s' = t.raw s := by
  have hgiven := given_of_ofNode (h _ t.name_mem_sectionNames) hs
  have hgiven' := given_of_ofNode (h' _ t.name_mem_sectionNames) hs'
  rw [given, heq] at hgiven'
  exact Except.ok.inj (hgiven'.symm.trans hgiven)

/-- So trees that agree on the settings hold the same settings, or are refused alike. -/
theorem ofNode_congr {root root' : Node} (h : root.Sectioned) (h' : root'.Sectioned)
    (heq : ∀ t : Setting, root'.setting? t.name t.key = root.setting? t.name t.key) :
    ofNode root' = ofNode root := by
  have hsection {σ : Type} {shape : Shape σ} {name : String} (hname : name ∈ sectionNames)
      (hfields : ∀ f ∈ shape.fields, ∃ t : Setting, t.name = name ∧ t.key = f.key) :
      ∀ s : σ, section? shape name root' s = section? shape name root s := by
    refine section?_congr (h name hname) (h' name hname) fun f hf => ?_
    obtain ⟨t, rfl, hkey⟩ := hfields f hf
    rw [← hkey, heq t]
  obtain ⟨happ, hbus, hlogging, hretry⟩ := exists_of_mem_fields
  rw [ofNode, hsection (by decide) happ, hsection (by decide) hbus, hsection (by decide) hlogging,
    hsection (by decide) hretry, ofNode]

/-- Settings that are laid over a tree, each at most once, are found there, and where none is laid
the tree is as it was. -/
theorem setting?_placeAll {entries : List (String × Node)}
    (hpath : ∀ e ∈ entries, ∃ u : Setting, e.1 = u.path)
    (hscalar : ∀ e ∈ entries, ∃ source? v, e.2 = .scalar source? v)
    (hdistinct : (entries.map (·.1)).Nodup) (root : Node) (t : Setting) :
    (root.placeAll entries).setting? t.name t.key =
      (Node.find t.path entries).or (root.setting? t.name t.key) := by
  induction entries generalizing root with
  | nil => rfl
  | cons e rest ih =>
    obtain ⟨⟨u, hu⟩, hrest⟩ := List.forall_mem_cons.mp hpath
    obtain ⟨⟨source?, v, hv⟩, hleaves⟩ := List.forall_mem_cons.mp hscalar
    rw [List.map_cons, List.nodup_cons] at hdistinct
    obtain ⟨k, n⟩ := e
    subst hu hv
    have hplaced : (root.placeAll ((u.path, .scalar source? v) :: rest)) =
        (root.place ⟨u.name, [.key u.key]⟩ (.scalar source? v)).placeAll rest := by
      rw [Node.placeAll, List.foldl_cons, ofText_path, Node.placeAll]
    rw [hplaced, ih hrest hleaves hdistinct.2, Node.find]
    by_cases hut : u = t
    · subst hut
      -- what is laid later leads to other settings
      rw [Node.find_eq_none_iff.mpr hdistinct.1, Node.setting?_place_self, if_pos rfl]
      rfl
    · have hne : u.name = t.name → u.key ≠ t.key := fun hname hkey => hut (eq_of_place hname hkey)
      rw [Node.setting?_place_of_ne hne, if_neg fun h => hut (path_injective h)]

/-- The sections stay tables. -/
theorem sectioned_placeAll {entries : List (String × Node)}
    (hpath : ∀ e ∈ entries, ∃ u : Setting, e.1 = u.path) {root : Node} (h : root.Sectioned) :
    (root.placeAll entries).Sectioned := by
  induction entries generalizing root with
  | nil => exact h
  | cons e rest ih =>
    obtain ⟨⟨u, hu⟩, hrest⟩ := List.forall_mem_cons.mp hpath
    refine ih hrest fun name hname => ?_
    have hplaced := (h name hname).place_setting u.name u.key e.2
    rwa [← ofText_path, ← hu] at hplaced

end Setting

end PeekLock
