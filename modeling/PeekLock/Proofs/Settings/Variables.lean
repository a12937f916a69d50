import PeekLock.Proofs.Decimal
import PeekLock.Proofs.Settings.Sections
import PeekLock.Settings.Load

/-!
# PeekLock.Proofs.Settings.Variables

Text settings that are given by environment variables.

A variable is laid over the tree of the file under the path in its name.
What is there when the sections are read is its value, unless a variable
that comes later leads to the same setting, or to the section in another
way than by a key.  The value is not the text of the variable, though: what
is spelled like a truth value or a number is one, and is printed again
(`printed`).
-/

namespace PeekLock

open Settings

/-- The settings that hold a text. -/
inductive TextSetting where
  | appName
  | appVersion
  | appEnvironment
  | connectionString
  | queue
  | topic
  | subscription
  | logLevel
  | logFile
  deriving DecidableEq, Repr

namespace TextSetting

/-- The section of a setting. -/
def name : TextSetting → String
  | appName | appVersion | appEnvironment => "app"
  | connectionString | queue | topic | subscription => "servicebus"
  | logLevel | logFile => "logging"

/-- The key of a setting in its section. -/
def key : TextSetting → String
  | appName => "name"
  | appVersion => "version"
  | appEnvironment => "environment"
  | connectionString => "connection_string"
  | queue => "queue"
  | topic => "topic"
  | subscription => "subscription"
  | logLevel => "level"
  | logFile => "file"

/-- The path that leads to a setting, as it is written. -/
def path (t : TextSetting) : String := t.name ++ "." ++ t.key

/-- The variable that a setting is given by. -/
def variableName : TextSetting → String
  | appName => "SERVICEKIT__APP__NAME"
  | appVersion => "SERVICEKIT__APP__VERSION"
  | appEnvironment => "SERVICEKIT__APP__ENVIRONMENT"
  | connectionString => "SERVICEKIT__SERVICEBUS__CONNECTION_STRING"
  | queue => "SERVICEKIT__SERVICEBUS__QUEUE"
  | topic => "SERVICEKIT__SERVICEBUS__TOPIC"
  | subscription => "SERVICEKIT__SERVICEBUS__SUBSCRIPTION"
  | logLevel => "SERVICEKIT__LOGGING__LEVEL"
  | logFile => "SERVICEKIT__LOGGING__FILE"

/-- What is kept for a setting. -/
def raw (s : Settings) : TextSetting → Option String
  | appName => s.app.name?
  | appVersion => s.app.version?
  | appEnvironment => s.app.environment?
  | connectionString => s.bus.connectionString?
  | queue => s.bus.queue?
  | topic => s.bus.topic?
  | subscription => s.bus.subscription?
  | logLevel => s.logging.level?
  | logFile => s.logging.file?

/-- What the accessor of a setting returns. -/
def effective (s : Settings) : TextSetting → Option String
  | appName => some s.app.name
  | appVersion => some s.app.version
  | appEnvironment => some s.app.environment
  | connectionString => s.bus.connectionString
  | queue => some s.bus.queue
  | topic => s.bus.topic
  | subscription => s.bus.subscription
  | logLevel => some s.logging.level
  | logFile => s.logging.file

/-- What the accessor of a setting makes of a text: it is trimmed where the bus is concerned, and
where a blank one counts as not given there is nothing or the default. -/
def shown (w : String) : TextSetting → Option String
  | appName | appVersion | appEnvironment | logLevel => some w
  | connectionString | topic | subscription =>
    if (Text.trim w).isEmpty then none else some (Text.trim w)
  | queue => some (if (Text.trim w).isEmpty then "default-queue" else Text.trim w)
  | logFile => if Text.isBlankText w then none else some w

theorem key?_variableName (t : TextSetting) :
    Environment.key? t.variableName = some t.path := by
  cases t <;> decide +kernel

theorem ofText_path (t : TextSetting) : Path.ofText t.path = ⟨t.name, [.key t.key]⟩ := by
  cases t <;> decide +kernel

theorem nonBlank_some (w : String) : BusSettings.nonBlank (some w) =
    if (Text.trim w).isEmpty then none else some (Text.trim w) := by
  rw [BusSettings.nonBlank, Option.map_some, Option.filter_some]
  cases (Text.trim w).isEmpty <;> rfl

/-- A section and a key tell which setting it is. -/
theorem eq_of_place {t u : TextSetting} (hname : u.name = t.name) (hkey : u.key = t.key) :
    u = t := by
  revert hname hkey
  cases t <;> cases u <;> decide

/-- The accessors follow what is kept. -/
theorem effective_of_raw {t : TextSetting} {s : Settings} {w : String} (h : t.raw s = some w) :
    t.effective s = t.shown w := by
  cases t with
  | appName => exact congrArg (fun o => some (o.getD "servicekit")) h
  | appVersion => exact congrArg (fun o => some (o.getD "1.0.0")) h
  | appEnvironment => exact congrArg (fun o => some (o.getD "dev")) h
  | connectionString => exact (congrArg BusSettings.nonBlank h).trans (nonBlank_some w)
  | queue =>
    rw [effective, BusSettings.queue, show s.bus.queue? = some w from h, nonBlank_some, shown]
    split <;> rfl
  | topic => exact (congrArg BusSettings.nonBlank h).trans (nonBlank_some w)
  | subscription => exact (congrArg BusSettings.nonBlank h).trans (nonBlank_some w)
  | logLevel => exact congrArg (fun o => some (o.getD "info")) h
  | logFile =>
    rw [effective, LoggingSettings.file, show s.logging.file? = some w from h, Option.filter_some,
      shown]
    cases Text.isBlankText w <;> rfl

/-- What is kept for a setting is what is read at its place, as a text. -/
theorem readAt (t : TextSetting) : ReadAt t.name t.key textOf fun s => t.raw s := by
  have hdistinct : (appShape.fields.map (·.key)).Nodup ∧ (busShape.fields.map (·.key)).Nodup ∧
      (loggingShape.fields.map (·.key)).Nodup := by
    decide
  obtain ⟨hinApp, hinBus, hinLogging⟩ := hdistinct
  cases t with
  | appName =>
    exact .of_section (·.app) (appShape.keeps (·.name?) 0 rfl hinApp (fun _ _ => rfl)
      (by simp [appShape, Entry.spares_of])) rfl
  | appVersion =>
    exact .of_section (·.app) (appShape.keeps (·.version?) 1 rfl hinApp (fun _ _ => rfl)
      (by simp [appShape, Entry.spares_of])) rfl
  | appEnvironment =>
    exact .of_section (·.app) (appShape.keeps (·.environment?) 2 rfl hinApp (fun _ _ => rfl)
      (by simp [appShape, Entry.spares_of])) rfl
  | connectionString =>
    exact .of_section (·.bus) (busShape.keeps (·.connectionString?) 0 rfl hinBus (fun _ _ => rfl)
      (by simp [busShape, Entry.spares_of])) rfl
  | queue =>
    exact .of_section (·.bus) (busShape.keeps (·.queue?) 1 rfl hinBus (fun _ _ => rfl)
      (by simp [busShape, Entry.spares_of])) rfl
  | topic =>
    exact .of_section (·.bus) (busShape.keeps (·.topic?) 2 rfl hinBus (fun _ _ => rfl)
      (by simp [busShape, Entry.spares_of])) rfl
  | subscription =>
    exact .of_section (·.bus) (busShape.keeps (·.subscription?) 3 rfl hinBus (fun _ _ => rfl)
      (by simp [busShape, Entry.spares_of])) rfl
  | logLevel =>
    exact .of_section (·.logging) (loggingShape.keeps (·.level?) 0 rfl hinLogging (fun _ _ => rfl)
      (by simp [loggingShape, Entry.spares_of])) rfl
  | logFile =>
    exact .of_section (·.logging) (loggingShape.keeps (·.file?) 1 rfl hinLogging (fun _ _ => rfl)
      (by simp [loggingShape, Entry.spares_of])) rfl

end TextSetting

/-! ## Values of variables -/

namespace Settings.Environment

/-- The text that a text setting makes of the value of a variable. -/
def printed (v : String) : String :=
  match valueOf v with
  | .null => ""
  | .bool b => toString b
  | .integer n => toString n
  | .real x => Decimal.plain x
  | .text s => s

/-- A variable that holds a setting is laid over the tree. -/
theorem settings_cons {given k : String} (h : key? given = some k) (v : String)
    (env : Environment) : settings ((given, v) :: env) =
      (k, .scalar (some .environment) (valueOf v)) :: settings env := by
  refine List.filterMap_cons_some ?_
  simp only [h, Option.map_some]

theorem valueOf_ne_null (v : String) : valueOf v ≠ .null := by
  unfold valueOf
  dsimp only
  repeat' split
  all_goals exact nofun

/-- A text setting takes whatever a variable holds. -/
theorem unlessNull_textOf_valueOf (source? : Option Source) (v : String) :
    unlessNull textOf (.scalar source? (valueOf v)) = .ok (some (printed v)) := by
  unfold printed
  cases hv : valueOf v with
  | null => exact absurd hv (valueOf_ne_null v)
  | _ => rfl

/-! ### Words are no numbers -/

/-- What is a letter in lower case is none of the characters before the letters. -/
theorem le_toNat_of_lowerChar {c : Char} (h : 65 ≤ (Text.lowerChar c).toNat) : 65 ≤ c.toNat := by
  refine Nat.le_of_not_lt fun hlt => ?_
  have hcapital : ('A' ≤ c && c ≤ 'Z') = false := by
    rw [Bool.and_eq_false_iff]
    refine .inl (decide_eq_false fun hle => ?_)
    exact absurd (Nat.lt_of_le_of_lt (UInt32.le_iff_toNat_le.mp hle) hlt) (by decide)
  have hkelvin : c.toNat ≠ 0x212A := by omega
  rw [Text.lowerChar, hcapital, if_neg Bool.false_ne_true, if_neg hkelvin] at h
  omega

/-- A text whose lower case is a word of four or five letters is no number. -/
theorem no_number_of_word {v word : String} {d : Char} {ds : List Char}
    (h : Text.lowerCase v = word) (hword : word.toList = d :: ds) (hd : 65 ≤ d.toNat)
    (hl : ds.length = 3 ∨ ds.length = 4) :
    Decimal.int? Decimal.maxI64 v.toList = none ∧ Decimal.double? v.toList = none := by
  have hmap : v.toList.map Text.lowerChar = d :: ds := by
    rw [← hword, ← h, Text.lowerCase, String.toList_ofList]
  obtain ⟨c, cs, hv, hc, hcs⟩ := List.map_eq_cons_iff.mp hmap
  have hletter : 65 ≤ c.toNat := le_toNat_of_lowerChar (hc ▸ hd)
  have hlength : cs.length = ds.length := by
    rw [← hcs, List.length_map]
  rw [hv]
  refine ⟨Decimal.int?_eq_none_of_letter cs hletter,
    Decimal.double?_eq_none_of_letter hletter ?_ ?_⟩
  all_goals
    rw [List.length_cons]
    omega

theorem no_number_of_truth {v : String}
    (h : Text.lowerCase v = "true" ∨ Text.lowerCase v = "false") :
    Decimal.int? Decimal.maxI64 v.toList = none ∧ Decimal.double? v.toList = none := by
  obtain h | h := h
  · have hword : "true".toList = 't' :: ['r', 'u', 'e'] := by decide
    exact no_number_of_word h hword (by decide) (.inl rfl)
  · have hword : "false".toList = 'f' :: ['a', 'l', 's', 'e'] := by decide
    exact no_number_of_word h hword (by decide) (.inr rfl)

/-! ### How a value is printed -/

/-- What a text setting makes of the value of a variable, by how that is spelled. -/
structure Prints (v w : String) : Prop where
  /-- A truth value, in any case, is written in lower case. -/
  truth : Text.lowerCase v = "true" ∨ Text.lowerCase v = "false" → w = Text.lowerCase v
  /-- A whole number of 64 bits is written without a plus sign and without zeros in front. -/
  whole : ∀ n, Decimal.int? Decimal.maxI64 v.toList = some n → w = toString n
  /-- Any other number is written as the double that it stands for. -/
  real : Decimal.int? Decimal.maxI64 v.toList = none → ∀ x,
    Decimal.double? v.toList = some x → w = Decimal.plain x
  /-- Any other text is taken verbatim. -/
  verbatim : Text.lowerCase v ≠ "true" → Text.lowerCase v ≠ "false" →
    Decimal.int? Decimal.maxI64 v.toList = none → Decimal.double? v.toList = none → w = v
  /-- So are the two truth values in lower case, -/
  truth_verbatim : v = "true" ∨ v = "false" → w = v
  /-- and whole numbers without a plus sign and without zeros in front. -/
  whole_verbatim : ∀ n : Int, -(Decimal.maxI64 : Int) - 1 ≤ n → n ≤ Decimal.maxI64 →
    v = toString n → w = v

theorem printed_of_whole {v : String} {n : Int}
    (h : Decimal.int? Decimal.maxI64 v.toList = some n) : printed v = toString n := by
  have hno (hword : Text.lowerCase v = "true" ∨ Text.lowerCase v = "false") : False :=
    nomatch (no_number_of_truth hword).1.symm.trans h
  have htrue : Text.lowerCase v ≠ "true" := fun hw => hno (.inl hw)
  have hfalse : Text.lowerCase v ≠ "false" := fun hw => hno (.inr hw)
  simp only [printed, valueOf, htrue, hfalse, h, if_false]

theorem prints_printed (v : String) : Prints v (printed v) where
  truth h := by
    obtain h | h := h
    · simp only [printed, valueOf, h, if_true]
      rfl
    · have hne : "false" ≠ "true" := by decide
      simp only [printed, valueOf, h, hne, if_true, if_false]
      rfl
  whole n h := printed_of_whole h
  real hint x h := by
    have hno (hword : Text.lowerCase v = "true" ∨ Text.lowerCase v = "false") : False :=
      nomatch (no_number_of_truth hword).2.symm.trans h
    have htrue : Text.lowerCase v ≠ "true" := fun hw => hno (.inl hw)
    have hfalse : Text.lowerCase v ≠ "false" := fun hw => hno (.inr hw)
    simp only [printed, valueOf, htrue, hfalse, hint, h, if_false]
  verbatim htrue hfalse hint hdouble := by
    simp only [printed, valueOf, htrue, hfalse, hint, hdouble, if_false]
  truth_verbatim h := by
    obtain rfl | rfl := h <;> decide
  whole_verbatim n hmin hmax h := by
    rw [printed_of_whole (h ▸ Decimal.int?_toString hmin hmax), h]

end Settings.Environment

/-! ## Loading -/

theorem exists_of_toOption {ε α β : Type} {x : Except ε β} {f : β → α} {a : α}
    (h : x.toOption.map f = some a) : ∃ b, x = .ok b ∧ f b = a := by
  cases x with
  | error e => cases h
  | ok b => exact ⟨b, rfl, Option.some.inj h⟩

/-- Settings that load are those of the tree. -/
theorem Settings.exists_tree_of_load {files : Files} {env : Environment} {path? : Option String}
    {s : Settings} (h : load files env path? = .ok s) :
    ∃ root, tree files env path? = .ok root ∧ ofNode root = .ok s := by
  obtain ⟨root, htree, h⟩ := exists_ok_of_bind h
  cases hs : ofNode root with
  | error m =>
    rw [hs] at h
    cases h
  | ok settings =>
    rw [hs] at h
    obtain ⟨settings', hok, h⟩ := exists_ok_of_bind h
    cases hok
    dsimp only at h
    split at h
    · cases h
      exact ⟨root, htree, hs⟩
    · cases h

namespace TextSetting

/-- A variable leads neither to a setting, nor to its section as a whole or to an item of it. -/
def SparedBy (t : TextSetting) (given : String) : Prop :=
  ∀ k, Environment.key? given = some k → (Path.ofText k).Spares t.name t.key

/-- The variable of another setting does. -/
theorem sparedBy_variableName {t u : TextSetting} (h : u ≠ t) : t.SparedBy u.variableName := by
  intro k hk
  rw [key?_variableName] at hk
  cases hk
  rw [ofText_path]
  exact fun hname => ⟨u.key, [], rfl, fun hkey => absurd (eq_of_place hname hkey) h⟩

/-- So does any variable that is about another section. -/
theorem sparedBy_of_root_ne {t : TextSetting} {given k : String}
    (hkey : Environment.key? given = some k) (hroot : (Path.ofText k).root ≠ t.name) :
    t.SparedBy given := by
  intro k' hk'
  rw [hkey] at hk'
  cases hk'
  exact fun h => absurd h hroot

/-- The tree has the environment on top. -/
theorem ofNode_of_load {files : Files} {env : Environment} {path? : Option String} {s : Settings}
    (h : load files env path? = .ok s) :
    ∃ file : Node, ofNode (file.placeAll env.settings) = .ok s := by
  obtain ⟨root, htree, hs⟩ := exists_tree_of_load h
  rw [tree] at htree
  cases hfile : fromFile files path? with
  | error e =>
    rw [hfile] at htree
    cases htree
  | ok file =>
    rw [hfile] at htree
    cases htree
    exact ⟨_, hs⟩

/-- What is laid last over a setting is there when all of the environment is. -/
theorem exists_setting?_placeAll {t : TextSetting} {env before after : Environment}
    {given v : String} (file : Node) (henv : env = before ++ (given, v) :: after)
    (hkey : Environment.key? given = some t.path) (hafter : ∀ e ∈ after, t.SparedBy e.1) :
    ∃ n, (file.placeAll env.settings).setting? t.name t.key = some n ∧
      (n = .scalar (some .environment) (Environment.valueOf v) ∨ n.IsCompound) := by
  have hsettings : env.settings = before.settings ++
      (t.path, .scalar (some .environment) (Environment.valueOf v)) :: after.settings := by
    rw [henv, Environment.settings, List.filterMap_append]
    exact congrArg (before.settings ++ ·) (Environment.settings_cons hkey v after)
  have hplaced : file.placeAll env.settings =
      ((file.placeAll before.settings).place ⟨t.name, [.key t.key]⟩
        (.scalar (some .environment) (Environment.valueOf v))).placeAll after.settings := by
    rw [hsettings, Node.placeAll, List.foldl_append, List.foldl_cons, ofText_path]
    rfl
  rw [hplaced]
  refine Node.setting?_placeAll (Node.setting?_place_self ..) fun e he => ?_
  obtain ⟨⟨name, value⟩, hmem, he⟩ := List.mem_filterMap.mp he
  obtain ⟨k, hk, rfl⟩ := Option.map_eq_some_iff.mp he
  exact hafter _ hmem k hk

/-- A list or a table is no text. -/
theorem unlessNull_textOf_ne_ok {n : Node} (h : n.IsCompound) (w? : Option String) :
    unlessNull textOf n ≠ .ok w? := by
  cases n with
  | scalar source? value => contradiction
  | list source? items => exact nofun
  | table source? entries => exact nofun

/-- **The variable decides**: whatever the file says and whatever was laid before it, a text
setting is what its variable holds, as that is printed, if no variable that is laid later leads
to the setting again, or to its section as a whole or by a number. -/
theorem printed_of_variable {t : TextSetting} {files : Files} {env before after : Environment}
    {path? : Option String} {s : Settings} {given v : String}
    (hload : load files env path? = .ok s) (henv : env = before ++ (given, v) :: after)
    (hkey : Environment.key? given = some t.path) (hafter : ∀ e ∈ after, t.SparedBy e.1) :
    ∃ w, Environment.Prints v w ∧ t.raw s = some w ∧ t.effective s = t.shown w := by
  obtain ⟨file, hs⟩ := ofNode_of_load hload
  obtain ⟨n, hn, hor⟩ := exists_setting?_placeAll file henv hkey hafter
  have hread : unlessNull textOf n = .ok (t.raw s) := t.readAt.value hs hn
  obtain rfl | hcompound := hor
  · rw [Environment.unlessNull_textOf_valueOf] at hread
    have hraw : t.raw s = some (Environment.printed v) := (Except.ok.inj hread).symm
    exact ⟨_, Environment.prints_printed v, hraw, effective_of_raw hraw⟩
  · exact absurd hread (unlessNull_textOf_ne_ok hcompound _)

/-- A file with a version. -/
def versionFile : Files := [("config.toml", Text.Utf8.bytesOf "app.version = \"0.9\"")]

/-- Variables, not all of which are settings. -/
def deployed : Environment := [("PATH", "/bin"), ("SERVICEKIT__APP__VERSION", "1.2.3"),
  ("SERVICEKIT__SERVICEBUS__QUEUE", "007"), ("SERVICEKIT__RETRY__MAX_ATTEMPTS", "5")]

theorem printed_of_variable_deployed : ∃ s, load versionFile deployed none = .ok s ∧
    raw s .queue = some "7" ∧ effective s .queue = some "7" ∧
    raw s .appVersion = some "1.2.3" := by
  have hloads : (load versionFile deployed none).toOption.map (fun _ => ()) = some () := by
    decide +kernel
  obtain ⟨s, hs, -⟩ := exists_of_toOption hloads
  have hretry (t : TextSetting) (h : t.name ≠ "retry") :
      t.SparedBy "SERVICEKIT__RETRY__MAX_ATTEMPTS" := by
    have hkey : Environment.key? "SERVICEKIT__RETRY__MAX_ATTEMPTS" =
        some "retry.max_attempts" := by
      decide +kernel
    have hroot : (Path.ofText "retry.max_attempts").root = "retry" := by decide
    exact sparedBy_of_root_ne hkey (hroot ▸ h.symm)
  have hqueueLaid : deployed = [("PATH", "/bin"), ("SERVICEKIT__APP__VERSION", "1.2.3")] ++
      (variableName .queue, "007") :: [("SERVICEKIT__RETRY__MAX_ATTEMPTS", "5")] := rfl
  have hversionLaid : deployed = [("PATH", "/bin")] ++ (variableName .appVersion, "1.2.3") ::
      [(variableName .queue, "007"), ("SERVICEKIT__RETRY__MAX_ATTEMPTS", "5")] := rfl
  have hafterQueue : ∀ e ∈ [("SERVICEKIT__RETRY__MAX_ATTEMPTS", "5")], queue.SparedBy e.1 :=
    List.forall_mem_singleton.mpr (hretry _ (by decide))
  have hafterVersion : ∀ e ∈ [(variableName .queue, "007"),
      ("SERVICEKIT__RETRY__MAX_ATTEMPTS", "5")], appVersion.SparedBy e.1 :=
    List.forall_mem_cons.mpr ⟨sparedBy_variableName (by decide),
      List.forall_mem_singleton.mpr (hretry _ (by decide))⟩
  obtain ⟨w, hw, hraw, hshown⟩ :=
    printed_of_variable hs hqueueLaid (key?_variableName .queue) hafterQueue
  obtain ⟨w', hw', hraw', -⟩ :=
    printed_of_variable hs hversionLaid (key?_variableName .appVersion) hafterVersion
  obtain rfl : w = "7" := hw.whole 7 (by decide)
  obtain rfl : w' = "1.2.3" := hw'.verbatim (by decide) (by decide) (by decide) (by decide)
  exact ⟨s, hs, hraw, hshown.trans (by decide), hraw'⟩

/-- What is loaded for the name of the service when there is no file. -/
def loadedName (env : Environment) : Option (Option String) :=
  (load [] env none).toOption.map fun s => raw s .appName

/-- The text of a variable is not always taken verbatim: a number with zeros in front loses them.
Nor does a variable decide if another one that is laid later has the same key in lower case, or
leads to the section as a whole, or to an item of it. -/
theorem not_verbatim :
    (¬ ∀ (t : TextSetting) (files : Files) (env : Environment) (path? : Option String)
      (s : Settings) (v : String), (t.variableName, v) ∈ env →
        load files env path? = .ok s → t.raw s = some v) ∧
    loadedName [("SERVICEKIT__APP__NAME", "a"), ("servicekit__app__name", "b")] =
      some (some "b") ∧
    loadedName [("SERVICEKIT__APP__NAME", "a"), ("SERVICEKIT__APP", "b"),
      ("SERVICEKIT__APP__VERSION", "c")] = some none ∧
    loadedName [("SERVICEKIT__APP__NAME", "a"), ("SERVICEKIT__APP[0]", "b"),
      ("SERVICEKIT__APP[1]", "c"), ("SERVICEKIT__APP[2]", "d")] = some (some "b") := by
  refine ⟨fun h => ?_, by decide +kernel, by decide +kernel, by decide +kernel⟩
  have hqueue : (load [] [(variableName .queue, "007")] none).toOption.map
      (fun s => raw s .queue) = some (some "7") := by
    decide +kernel
  obtain ⟨s, hs, hraw⟩ := exists_of_toOption hqueue
  have hclaimed := h .queue [] _ none s "007" List.mem_cons_self hs
  rw [hraw] at hclaimed
  exact absurd hclaimed (by decide)

end TextSetting

end PeekLock
