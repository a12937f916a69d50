import PeekLock.Proofs.Settings.Places

/-!
# PeekLock.Proofs.Settings.Precedence

The environment laid over the file, setting by setting.

A variable that is spelled like the variable of a setting, but for case,
names it.  With variables that each name a setting of their own, what is
read of a setting is what its variable holds, or what the file holds if it
has none (`Proper.setting?_placeAll`).  So a variable is about its setting
only, and the order of the variables does not matter.
-/

namespace PeekLock

open Settings

namespace Setting

/-- A variable names a setting: but for case it is spelled like the variable of the setting. -/
def IsNamedBy (t : Setting) (given : String) : Prop :=
  Text.lowerCase given = Text.lowerCase t.variableName

instance (t : Setting) (given : String) : Decidable (t.IsNamedBy given) :=
  inferInstanceAs (Decidable (_ = _))

theorem IsNamedBy.key? {t : Setting} {given : String} (h : t.IsNamedBy given) :
    Environment.key? given = some t.path := by
  rw [← t.key?_variableName, Environment.key?, h, Environment.key?]

end Setting

/-! ## Variables of settings -/

namespace Settings.Environment

/-- Whether a variable is about settings: in lower case its name starts with the mark. -/
def isMarked (given : String) : Bool := mark.isPrefixOf (Text.lowerCase given).toList

theorem isSome_key? (given : String) : (key? given).isSome = isMarked given :=
  Bool.eq_iff_iff.mpr Option.isSome_ite

theorem isMarked_of_key? {given k : String} (h : key? given = some k) : isMarked given = true := by
  rw [← isSome_key?, h, Option.isSome_some]

/-- The variables about settings name one each, and no two are spelled alike but for case. -/
structure Proper (env : Environment) : Prop where
  named : ∀ e ∈ env, isMarked e.1 = true → ∃ t : Setting, t.IsNamedBy e.1
  distinct : ((env.filter fun e => isMarked e.1).map fun e => Text.lowerCase e.1).Nodup

variable {env env' : Environment} {e : String × String} {root : Node} {t : Setting}

/-- Variables that are not about settings lay nothing over the tree. -/
theorem settings_filter (env : Environment) :
    settings (env.filter fun e => isMarked e.1) = env.settings := by
  rw [settings, settings, List.filterMap_filter]
  congr 1
  funext e
  obtain ⟨given, v⟩ := e
  split
  · rfl
  · next h =>
    rw [← isSome_key?, Bool.not_eq_true, Option.isSome_eq_false_iff, Option.isNone_iff_eq_none] at h
    simp only [h, Option.map_none]

theorem settings_perm (hperm : env'.Perm env) : env'.settings.Perm env.settings :=
  hperm.filterMap _

theorem mem_settings {k : String} {n : Node} (h : (k, n) ∈ env.settings) :
    ∃ e ∈ env, key? e.1 = some k ∧ n = .scalar (some .environment) (valueOf e.2) := by
  obtain ⟨e, he, h⟩ := List.mem_filterMap.mp h
  obtain ⟨k', hk, h⟩ := Option.map_eq_some_iff.mp h
  cases h
  exact ⟨e, he, hk, rfl⟩

namespace Proper

theorem perm (h : env.Proper) (hperm : env'.Perm env) : env'.Proper where
  named e he := h.named e (hperm.mem_iff.mp he)
  distinct := ((hperm.filter _).map _).nodup_iff.mpr h.distinct

theorem exists_setting {k : String} (h : env.Proper) (he : e ∈ env) (hk : key? e.1 = some k) :
    ∃ t : Setting, t.IsNamedBy e.1 ∧ k = t.path := by
  obtain ⟨t, ht⟩ := h.named e he (isMarked_of_key? hk)
  exact ⟨t, ht, Option.some.inj (hk.symm.trans ht.key?)⟩

theorem exists_path (h : env.Proper) : ∀ e ∈ env.settings, ∃ t : Setting, e.1 = t.path := by
  rintro ⟨k, n⟩ hmem
  obtain ⟨e, he, hk, -⟩ := mem_settings hmem
  obtain ⟨t, -, hpath⟩ := h.exists_setting he hk
  exact ⟨t, hpath⟩

/-- No setting is laid twice. -/
theorem nodup_settings (h : env.Proper) : (env.settings.map (·.1)).Nodup := by
  have hdistinct := h.distinct
  rw [List.Nodup, List.pairwise_map, List.pairwise_filter] at hdistinct
  rw [List.Nodup, List.pairwise_map, settings, List.pairwise_filterMap]
  refine hdistinct.imp_of_mem fun {e e'} he he' hne l hl l' hl' heq => ?_
  -- two variables with one path name the same setting, so they would be spelled alike
  obtain ⟨k, hk, rfl⟩ := Option.map_eq_some_iff.mp hl
  obtain ⟨k', hk', rfl⟩ := Option.map_eq_some_iff.mp hl'
  obtain rfl : k = k' := heq
  obtain ⟨t, ht, hpath⟩ := h.exists_setting he hk
  obtain ⟨t', ht', hpath'⟩ := h.exists_setting he' hk'
  obtain rfl := Setting.path_injective (hpath.symm.trans hpath')
  exact hne (isMarked_of_key? hk) (isMarked_of_key? hk') (ht.trans ht'.symm)

theorem setting?_placeAll (h : env.Proper) (root : Node) (t : Setting) :
    (root.placeAll env.settings).setting? t.name t.key =
      (Node.find t.path env.settings).or (root.setting? t.name t.key) := by
  refine Setting.setting?_placeAll h.exists_path ?_ h.nodup_settings root t
  rintro ⟨k, n⟩ hmem
  obtain ⟨e, -, -, rfl⟩ := mem_settings hmem
  exact ⟨_, _, rfl⟩

/-- A setting that a variable names has the value of the variable. -/
theorem setting?_of_isNamedBy (h : env.Proper) (root : Node) (he : e ∈ env)
    (ht : t.IsNamedBy e.1) : (root.placeAll env.settings).setting? t.name t.key =
      some (.scalar (some .environment) (valueOf e.2)) := by
  have hlaid : (t.path, .scalar (some .environment) (valueOf e.2)) ∈ env.settings :=
    List.mem_filterMap.mpr ⟨e, he, congrArg (Option.map _) ht.key?⟩
  rw [h.setting?_placeAll, (Node.find_eq_some_iff h.nodup_settings).mpr hlaid, Option.some_or]

/-- A setting that no variable names is left as it is. -/
theorem setting?_of_not_isNamedBy (h : env.Proper) (root : Node)
    (hno : ∀ e ∈ env, ¬ t.IsNamedBy e.1) :
    (root.placeAll env.settings).setting? t.name t.key = root.setting? t.name t.key := by
  have hnone : t.path ∉ env.settings.map (·.1) := by
    intro hmem
    obtain ⟨⟨k, n⟩, hmem, hk⟩ := List.mem_map.mp hmem
    obtain rfl : k = t.path := hk
    obtain ⟨e, he, hkey, -⟩ := mem_settings hmem
    obtain ⟨u, hu, hpath⟩ := h.exists_setting he hkey
    exact hno e he (Setting.path_injective hpath ▸ hu)
  rw [h.setting?_placeAll, Node.find_eq_none_iff.mpr hnone, Option.none_or]

theorem sectioned_placeAll (h : env.Proper) (hroot : root.Sectioned) :
    (root.placeAll env.settings).Sectioned :=
  Setting.sectioned_placeAll h.exists_path hroot

end Proper

/-! ## Loading -/

variable {files : Files} {path? : Option String} {s s' : Settings}

/-- The environment is laid over the tree of the file alone. -/
theorem tree_of_alone (h : tree files [] path? = .ok root) (env : Environment) :
    tree files env path? = .ok (root.placeAll env.settings) := by
  unfold tree at h ⊢
  cases hfile : fromFile files path? with
  | error e =>
    rw [hfile] at h
    cases h
  | ok file =>
    rw [hfile] at h
    cases h
    rfl

theorem ofNode_placeAll_of_load (h : tree files [] path? = .ok root)
    (hs : load files env path? = .ok s) : ofNode (root.placeAll env.settings) = .ok s := by
  obtain ⟨r, htree, hr⟩ := exists_tree_of_load hs
  rw [tree_of_alone h] at htree
  cases htree
  exact hr

/-- Environments are loaded alike if the trees hold the same settings or are refused alike. -/
theorem load_congr (h : tree files [] path? = .ok root)
    (heq : ofNode (root.placeAll env'.settings) = ofNode (root.placeAll env.settings)) :
    load files env' path? = load files env path? := by
  rw [load, load, tree_of_alone h, tree_of_alone h]
  simp only [bind, Except.bind, heq]

theorem exists_convert_of_unlessNull {α : Type} {convert : Node → Except Refusal α}
    {source? : Option Source} {v : String} {w? : Option α}
    (h : unlessNull convert (.scalar source? (valueOf v)) = .ok w?) :
    ∃ w, convert (.scalar source? (valueOf v)) = .ok w ∧ w? = some w := by
  have hmap : unlessNull convert (.scalar source? (valueOf v)) =
      (convert (.scalar source? (valueOf v))).map some := by
    cases hv : valueOf v with
    | null => exact absurd hv (valueOf_ne_null v)
    | _ => rfl
  rw [hmap] at h
  cases hw : convert (.scalar source? (valueOf v)) with
  | error r =>
    rw [hw] at h
    cases h
  | ok w =>
    rw [hw] at h
    cases h
    exact ⟨w, rfl, rfl⟩

/-- What the environment makes of each setting, where `root` is the tree of the file alone. -/
structure Overrides (files : Files) (path? : Option String) (root : Node) (env : Environment) :
    Prop where
  /-- A setting that a variable names has the value of the variable, converted, whatever the file
  holds for it. -/
  named : ∀ {s}, load files env path? = .ok s → ∀ (t : Setting), ∀ e ∈ env, t.IsNamedBy e.1 →
    ∃ w, t.kind.convert (.scalar (some .environment) (valueOf e.2)) = .ok w ∧ t.raw s = some w
  /-- Any other setting has the value that the file alone gives it, or none if it gives none, -/
  unnamed : ∀ {s}, load files env path? = .ok s → ∀ t : Setting,
    (∀ e ∈ env, ¬ t.IsNamedBy e.1) → t.given root = .ok (t.raw s)
  /-- which is what is loaded for it from the file alone. -/
  alone : ∀ {s s₀}, load files env path? = .ok s → load files [] path? = .ok s₀ →
    ∀ t : Setting, (∀ e ∈ env, ¬ t.IsNamedBy e.1) → t.raw s = t.raw s₀
  /-- Variables without the mark have no influence. -/
  marked : load files (env.filter fun e => isMarked e.1) path? = load files env path?
  /-- One more variable changes no setting but its own. -/
  added : ∀ {env' given v s s'} {t : Setting}, env'.Perm ((given, v) :: env) → env'.Proper →
    t.IsNamedBy given → load files env path? = .ok s → load files env' path? = .ok s' →
      ∀ u : Setting, u ≠ t → u.raw s' = u.raw s
  /-- The order of the variables does not matter. -/
  shuffled : ∀ {env'}, env'.Perm env → load files env' path? = load files env path?

/-- **Precedence**: variables that each name a setting of their own decide about these settings,
whatever a file holds whose sections are tables, and leave all others to the file; neither their
order nor any other variable matters. -/
theorem overrides_of_proper (htree : tree files [] path? = .ok root) (hroot : root.Sectioned)
    (henv : env.Proper) : Overrides files path? root env where
  named hs t e he ht :=
    exists_convert_of_unlessNull <| t.readAt.value (ofNode_placeAll_of_load htree hs)
      (henv.setting?_of_isNamedBy root he ht)
  unnamed hs t hno := by
    have hgiven := Setting.given_of_ofNode (henv.sectioned_placeAll hroot _ t.name_mem_sectionNames)
      (ofNode_placeAll_of_load htree hs)
    rwa [Setting.given, henv.setting?_of_not_isNamedBy root hno] at hgiven
  alone hs hs₀ t hno :=
    Setting.raw_eq_of_setting?_eq hroot (henv.sectioned_placeAll hroot)
      (henv.setting?_of_not_isNamedBy root hno) (ofNode_placeAll_of_load htree hs₀)
      (ofNode_placeAll_of_load htree hs)
  marked := by
    rw [load, load, tree, tree, settings_filter]
  added {env' given v s s' t} hperm henv' ht hs hs' u hu := by
    refine Setting.raw_eq_of_setting?_eq (henv.sectioned_placeAll hroot)
      (henv'.sectioned_placeAll hroot) ?_ (ofNode_placeAll_of_load htree hs)
      (ofNode_placeAll_of_load htree hs')
    have hlaid := settings_perm hperm
    have hne : t.path ≠ u.path := fun heq => hu (Setting.path_injective heq.symm)
    rw [henv.setting?_placeAll, henv'.setting?_placeAll,
      ← Node.find_perm henv'.nodup_settings hlaid.symm, settings_cons ht.key?, Node.find,
      if_neg hne]
  shuffled {env'} hperm := by
    have henv' := henv.perm hperm
    refine load_congr htree <| Setting.ofNode_congr (henv.sectioned_placeAll hroot)
      (henv'.sectioned_placeAll hroot) fun t => ?_
    rw [henv.setting?_placeAll, henv'.setting?_placeAll,
      Node.find_perm henv.nodup_settings (settings_perm hperm)]

/-- A file with two settings of the bus. -/
def ordersFile : Files :=
  [("config.toml", Text.Utf8.bytesOf "[servicebus]\nqueue = \"orders\"\nconcurrency = 2\n")]

/-- Two variables about settings, and one that is not. -/
def eightWorkers : Environment := [("SERVICEKIT__SERVICEBUS__CONCURRENCY", "8"),
  ("SERVICEKIT__LOGGING__LEVEL", "warn"), ("UNRELATED__SERVICEBUS__QUEUE", "other")]

theorem proper_eightWorkers : eightWorkers.Proper where
  named := by
    have hunrelated : isMarked "UNRELATED__SERVICEBUS__QUEUE" = false := by decide +kernel
    simp only [eightWorkers, List.forall_mem_cons, List.not_mem_nil, false_implies, implies_true,
      and_true]
    exact ⟨fun _ => ⟨.concurrency, rfl⟩, fun _ => ⟨.text .logLevel, rfl⟩,
      fun h => nomatch hunrelated.symm.trans h⟩
  distinct := by decide +kernel

theorem overrides_eightWorkers : ∃ root s, tree ordersFile [] none = .ok root ∧
    root.Sectioned ∧ eightWorkers.Proper ∧ load ordersFile eightWorkers none = .ok s ∧
    load ordersFile eightWorkers.reverse none = .ok s ∧ s.bus.concurrency? = some 8 ∧
    s.logging.level? = some "warn" ∧ s.bus.queue? = some "orders" := by
  have hfile : (fromFile ordersFile none).toOption.map (fun file => decide file.Plain) =
      some true := by
    decide +kernel
  obtain ⟨file, hfile, hplain⟩ := exists_of_toOption hfile
  obtain ⟨root, htree, hroot⟩ := exists_tree_of_plain hfile (of_decide_eq_true hplain)
  have hloads : (load ordersFile eightWorkers none).toOption.map (fun _ => ()) = some () := by
    decide +kernel
  obtain ⟨s, hs, -⟩ := exists_of_toOption hloads
  have halone : (load ordersFile [] none).toOption.map (fun s => s.bus.queue?) =
      some (some "orders") := by
    decide +kernel
  obtain ⟨s₀, hs₀, hqueue⟩ := exists_of_toOption halone
  have h := overrides_of_proper htree hroot proper_eightWorkers
  have hconcurrency : s.bus.concurrency? = some 8 := by
    obtain ⟨w, hw, hraw⟩ := h.named hs .concurrency _ List.mem_cons_self rfl
    have hvalue : valueOf "8" = .integer 8 := by decide +kernel
    rw [hvalue] at hw
    cases hw
    exact hraw
  have hlevel : s.logging.level? = some "warn" := by
    obtain ⟨w, hw, hraw⟩ := h.named hs (.text .logLevel) _ (.tail _ List.mem_cons_self) rfl
    have hvalue : valueOf "warn" = .text "warn" := by decide +kernel
    rw [hvalue] at hw
    cases hw
    exact hraw
  have hunnamed : ∀ e ∈ eightWorkers, ¬ (Setting.text .queue).IsNamedBy e.1 := by decide +kernel
  exact ⟨root, s, htree, hroot, proper_eightWorkers, hs,
    (h.shuffled (List.reverse_perm _)).trans hs, hconcurrency, hlevel,
    (h.alone hs hs₀ _ hunnamed).trans hqueue⟩

end Settings.Environment

end PeekLock
