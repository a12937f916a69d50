import Mathlib.Data.List.TakeWhile
import PeekLock.Settings.Validation

/-!
# PeekLock.Proofs.Settings.Limits

Which settings are valid, and what that is good for.

There are ten rules.  They are stated here for the values as they are given
(`Rule.KeptBy`), with the defaults written out, while they are checked on
the effective ones; both come to the same, since every default keeps its
rule, and clamping never brings a value back within its limit.  What is
wrong with some settings is one violation for each rule that is broken, in
the order of the rules.  The consumer of valid settings runs on the values
that were checked.
-/

namespace PeekLock

/-! ## Comparing doubles -/

section Compare

open Float.Model

/-- Comparing the other way round gives the opposite answer. -/
theorem compare_swap (a b : UnpackedFloat) : a.compare b = (b.compare a).map Ordering.swap := by
  have hfinite (e₁ e₂ : Int) (m₁ m₂ : Nat) :
      (compare e₁ e₂).then (compare m₁ m₂) = ((compare e₂ e₁).then (compare m₂ m₁)).swap := by
    rw [Ordering.swap_then, ← Std.OrientedCmp.eq_swap, ← Std.OrientedCmp.eq_swap]
  cases a with
  | notANumber => cases b <;> rfl
  | infinity s =>
    cases b with
    | infinity t => cases s <;> cases t <;> rfl
    | _ => cases s <;> rfl
  | zero s =>
    cases b with
    | infinity t => cases t <;> rfl
    | finite t m e h => cases t <;> rfl
    | _ => rfl
  | finite s m e h =>
    cases b with
    | infinity t => cases s <;> cases t <;> rfl
    | finite t n f k =>
      cases s <;> cases t
      · exact congrArg some (congrArg Ordering.swap (hfinite e f m n))
      · rfl
      · rfl
      · exact congrArg some (hfinite e f m n)
    | _ => cases s <;> rfl

/-- Any two numbers can be compared. -/
theorem exists_compare {a b : UnpackedFloat} (ha : a.isNaN = false) (hb : b.isNaN = false) :
    ∃ o, a.compare b = some o := by
  cases a with
  | notANumber => contradiction
  | infinity s =>
    cases b with
    | notANumber => contradiction
    | infinity t => exact ⟨_, rfl⟩
    | _ => cases s <;> exact ⟨_, rfl⟩
  | zero s =>
    cases b with
    | notANumber => contradiction
    | zero t => exact ⟨_, rfl⟩
    | _ t => cases t <;> exact ⟨_, rfl⟩
  | finite s m e h =>
    cases b with
    | notANumber => contradiction
    | infinity t => cases s <;> cases t <;> exact ⟨_, rfl⟩
    | finite t n f k => cases s <;> cases t <;> exact ⟨_, rfl⟩
    | zero t => cases s <;> exact ⟨_, rfl⟩

/-- Of two numbers one is at least the other, or it is below. -/
theorem le_iff_not_lt {x y : Float} (hx : x.isNaN = false) (hy : y.isNaN = false) :
    y ≤ x ↔ ¬ x < y := by
  obtain ⟨o, ho⟩ := exists_compare (a := x.toModel.unpack) (b := y.toModel.unpack) hx hy
  have hle : y ≤ x ↔ (y.toModel.unpack.compare x.toModel.unpack).any (·.isLE) = true :=
    decide_eq_true_iff
  have hlt : x < y ↔ (x.toModel.unpack.compare y.toModel.unpack == some .lt) = true :=
    decide_eq_true_iff
  rw [hle, hlt, compare_swap, ho]
  cases o <;> decide

end Compare

/-! ## The rules -/

/-- What is asked of settings. -/
inductive Rule where
  | concurrency
  | maxMessages
  | receiveTimeout
  | shutdownTimeout
  | receiveErrorBackoff
  | subscription
  | logLevel
  | retryAttempts
  | retryMultiplier
  | retryDelays
  deriving DecidableEq, Repr

/-- The count that takes effect: only a positive one counts as given, and none goes beyond
`limit`. -/
def countInEffect (default limit : Nat) (n? : Option Int) : Nat :=
  ((n?.filter (0 < ·)).map fun n => min n.toNat limit).getD default

/-- Whether a text is given that is not blank. -/
def IsGiven (text? : Option String) : Prop := ∃ text ∈ text?, Text.isBlankText text = false

namespace Rule

/-- The rules, in the order in which they are checked. -/
def all : List Rule := [concurrency, maxMessages, receiveTimeout, shutdownTimeout,
  receiveErrorBackoff, subscription, logLevel, retryAttempts, retryMultiplier, retryDelays]

theorem mem_all (r : Rule) : r ∈ all := by cases r <;> decide

/-- Settings keep a rule, as they are given.  What is not given breaks none. -/
def KeptBy (s : Settings) : Rule → Prop
  | concurrency => ∀ n ∈ s.bus.concurrency?, n ≤ 256
  | maxMessages => ∀ n ∈ s.bus.maxMessages?, n ≤ 2048
  | receiveTimeout => ∀ n ∈ s.bus.receiveTimeoutSecs?, 1 ≤ n ∧ n ≤ 600
  | shutdownTimeout => ∀ n ∈ s.bus.shutdownTimeoutSecs?, 1 ≤ n ∧ n ≤ 600
  | receiveErrorBackoff => ∀ n ∈ s.bus.receiveErrorBackoffMs?, n ≤ 300000
  | subscription => IsGiven s.bus.topic? ↔ IsGiven s.bus.subscription?
  | logLevel => ∀ level ∈ s.logging.level?,
    Text.lowerCase level ∈ ["trace", "debug", "info", "warn", "error", "off"]
  | retryAttempts => ∀ n ∈ s.retry.maxAttempts?, 1 ≤ n ∧ n ≤ 20
  | retryMultiplier => ∀ x ∈ s.retry.multiplier?, x.isNaN = false ∧ 1.0 ≤ x
  | retryDelays => s.retry.initialDelayMs?.getD 100 ≤ s.retry.maxDelayMs?.getD 5000

instance (text? : Option String) : Decidable (IsGiven text?) :=
  inferInstanceAs (Decidable (∃ text ∈ text?, Text.isBlankText text = false))

instance (s : Settings) : (r : Rule) → Decidable (r.KeptBy s)
  | concurrency => inferInstanceAs (Decidable (∀ n ∈ s.bus.concurrency?, n ≤ 256))
  | maxMessages => inferInstanceAs (Decidable (∀ n ∈ s.bus.maxMessages?, n ≤ 2048))
  | receiveTimeout =>
    inferInstanceAs (Decidable (∀ n ∈ s.bus.receiveTimeoutSecs?, 1 ≤ n ∧ n ≤ 600))
  | shutdownTimeout =>
    inferInstanceAs (Decidable (∀ n ∈ s.bus.shutdownTimeoutSecs?, 1 ≤ n ∧ n ≤ 600))
  | receiveErrorBackoff =>
    inferInstanceAs (Decidable (∀ n ∈ s.bus.receiveErrorBackoffMs?, n ≤ 300000))
  | subscription =>
    inferInstanceAs (Decidable (IsGiven s.bus.topic? ↔ IsGiven s.bus.subscription?))
  | logLevel => inferInstanceAs (Decidable (∀ level ∈ s.logging.level?,
    Text.lowerCase level ∈ ["trace", "debug", "info", "warn", "error", "off"]))
  | retryAttempts => inferInstanceAs (Decidable (∀ n ∈ s.retry.maxAttempts?, 1 ≤ n ∧ n ≤ 20))
  | retryMultiplier =>
    inferInstanceAs (Decidable (∀ x ∈ s.retry.multiplier?, x.isNaN = false ∧ 1.0 ≤ x))
  | retryDelays => inferInstanceAs
    (Decidable (s.retry.initialDelayMs?.getD 100 ≤ s.retry.maxDelayMs?.getD 5000))

/-- The violation of a rule, with the value that takes effect. -/
def violation (s : Settings) : Rule → Violation
  | concurrency => .concurrency (countInEffect 1 18446744073709551615 s.bus.concurrency?) 256
  | maxMessages => .maxMessages (countInEffect 10 4294967295 s.bus.maxMessages?) 2048
  | receiveTimeout => .receiveTimeout (s.bus.receiveTimeoutSecs?.getD 5) 600
  | shutdownTimeout => .shutdownTimeout (s.bus.shutdownTimeoutSecs?.getD 30) 600
  | receiveErrorBackoff =>
    .receiveErrorBackoff (s.bus.receiveErrorBackoffMs?.getD 1000) 300000
  | subscription => .incompleteSubscription
  | logLevel => .logLevel (s.logging.level?.getD "info")
  | retryAttempts => .retryAttempts (s.retry.maxAttempts?.getD 3) 20
  | retryMultiplier => .retryMultiplier (s.retry.multiplier?.getD 2.0)
  | retryDelays => .retryDelays (s.retry.initialDelayMs?.getD 100) (s.retry.maxDelayMs?.getD 5000)

/-- Whether the effective values break a rule. -/
def isBroken (s : Settings) : Rule → Bool
  | concurrency => 256 < s.bus.concurrency
  | maxMessages => 2048 < s.bus.maxMessages
  | receiveTimeout => s.bus.receiveTimeoutSecs = 0 || 600 < s.bus.receiveTimeoutSecs
  | shutdownTimeout => s.bus.shutdownTimeoutSecs = 0 || 600 < s.bus.shutdownTimeoutSecs
  | receiveErrorBackoff => 300000 < s.bus.receiveErrorBackoffMs
  | subscription => s.bus.topic.isSome != s.bus.subscription.isSome
  | logLevel =>
    !(["trace", "debug", "info", "warn", "error", "off"].contains (Text.lowerCase s.logging.level))
  | retryAttempts => s.retry.maxAttempts = 0 || 20 < s.retry.maxAttempts
  | retryMultiplier => s.retry.multiplier.isNaN || s.retry.multiplier < 1.0
  | retryDelays => s.retry.maxDelayMs < s.retry.initialDelayMs

end Rule

/-! ## Given values and effective values -/

theorem positiveOr_eq (default limit : Nat) (n? : Option Int) :
    BusSettings.positiveOr default limit n? = countInEffect default limit n? := by
  cases n? with
  | none => rfl
  | some n =>
    rw [BusSettings.positiveOr, countInEffect, Option.filter_some]
    by_cases hn : 0 < n <;> simp [hn]

/-- A count within a limit: clamping does not help one that is beyond it. -/
theorem positiveOr_le_iff {default limit bound : Nat} (hd : default ≤ bound) (hb : bound < limit)
    (n? : Option Int) :
    BusSettings.positiveOr default limit n? ≤ bound ↔ ∀ n ∈ n?, n ≤ bound := by
  cases n? with
  | none => simpa [BusSettings.positiveOr] using hd
  | some n =>
    simp only [BusSettings.positiveOr, Option.mem_some_iff, forall_eq']
    split <;> omega

theorem getD_within_iff {default bound : Nat} (hpos : 1 ≤ default) (hd : default ≤ bound)
    (n? : Option Nat) :
    (n?.getD default = 0 ∨ bound < n?.getD default) ↔ ¬ ∀ n ∈ n?, 1 ≤ n ∧ n ≤ bound := by
  cases n? with
  | none => simp; omega
  | some n =>
    simp only [Option.getD_some, Option.mem_some_iff, forall_eq']
    omega

/-- Only of a blank text nothing is left. -/
theorem trimChars_eq_nil_iff (cs : List Char) :
    Text.trimChars cs = [] ↔ cs.all Text.isBlank = true := by
  rw [Text.trimChars, List.reverse_eq_nil_iff, List.dropWhile_eq_nil_iff, List.all_eq_true]
  constructor
  · intro h
    -- what is left at the front is blank too, so nothing is left there either
    have hnil : cs.dropWhile Text.isBlank = [] := by
      refine Classical.byContradiction fun hne => ?_
      have hhead := List.head_dropWhile_not Text.isBlank hne
      rw [h _ (List.mem_reverse.mpr (List.head_mem hne))] at hhead
      contradiction
    exact fun c hc => List.dropWhile_eq_nil_iff.mp hnil c hc
  · intro h c hc
    exact h c (List.dropWhile_subset _ (List.mem_reverse.mp hc))

theorem isSome_nonBlank_iff (text? : Option String) :
    (BusSettings.nonBlank text?).isSome = true ↔ IsGiven text? := by
  cases text? with
  | none => simp [BusSettings.nonBlank, IsGiven]
  | some text =>
    have hblank : (Text.trim text).isEmpty = Text.isBlankText text := by
      rw [Bool.eq_iff_iff, Text.isBlankText, ← trimChars_eq_nil_iff, String.isEmpty_iff, Text.trim,
        String.ofList_eq_empty_iff]
    simp [BusSettings.nonBlank, IsGiven, hblank]

/-- A rule is broken by the effective values exactly if it is broken by the given ones. -/
theorem Rule.isBroken_iff (r : Rule) (s : Settings) : r.isBroken s = true ↔ ¬ r.KeptBy s := by
  cases r with
  | concurrency =>
    have hle : s.bus.concurrency ≤ 256 ↔ ∀ n ∈ s.bus.concurrency?, n ≤ 256 :=
      positiveOr_le_iff (by decide) (by decide) _
    rw [isBroken, decide_eq_true_eq, KeptBy, ← hle, Nat.not_le]
  | maxMessages =>
    have hle : s.bus.maxMessages ≤ 2048 ↔ ∀ n ∈ s.bus.maxMessages?, n ≤ 2048 :=
      positiveOr_le_iff (by decide) (by decide) _
    rw [isBroken, decide_eq_true_eq, KeptBy, ← hle, Nat.not_le]
  | receiveTimeout =>
    rw [isBroken, Bool.or_eq_true, decide_eq_true_eq, decide_eq_true_eq]
    exact getD_within_iff (by decide) (by decide) _
  | shutdownTimeout =>
    rw [isBroken, Bool.or_eq_true, decide_eq_true_eq, decide_eq_true_eq]
    exact getD_within_iff (by decide) (by decide) _
  | receiveErrorBackoff =>
    rw [isBroken, decide_eq_true_eq, KeptBy, BusSettings.receiveErrorBackoffMs]
    cases s.bus.receiveErrorBackoffMs? with
    | none => decide
    | some n => simp
  | subscription =>
    rw [isBroken, KeptBy, ← isSome_nonBlank_iff, ← isSome_nonBlank_iff, bne_iff_ne, ne_eq,
      Bool.eq_iff_iff]
    rfl
  | logLevel =>
    rw [isBroken, KeptBy, LoggingSettings.level]
    cases s.logging.level? with
    | none => decide
    | some level => simp
  | retryAttempts =>
    rw [isBroken, Bool.or_eq_true, decide_eq_true_eq, decide_eq_true_eq]
    exact getD_within_iff (by decide) (by decide) _
  | retryMultiplier =>
    rw [isBroken, KeptBy, RetrySettings.multiplier]
    cases s.retry.multiplier? with
    | none => decide +kernel
    | some x =>
      simp only [Option.getD_some, Option.mem_some_iff, forall_eq']
      cases hx : x.isNaN with
      | true => simp only [Bool.true_or, Bool.true_eq_false, false_and, not_false_eq_true]
      | false =>
        rw [Bool.false_or, decide_eq_true_eq, le_iff_not_lt (y := 1.0) hx (by decide +kernel)]
        simp only [true_and, Decidable.not_not]
  | retryDelays =>
    rw [isBroken, decide_eq_true_eq, KeptBy, Nat.not_le]
    rfl

/-- What is wrong is said rule by rule. -/
theorem violations_eq (s : Settings) :
    s.violations = Rule.all.flatMap fun r => Settings.whenever (r.isBroken s) (r.violation s) := by
  simp only [Rule.all, List.flatMap_cons, List.flatMap_nil, List.append_nil, Settings.violations,
    List.append_assoc, Rule.violation, ← positiveOr_eq]
  rfl

/-- There is one violation for each rule that is broken, in the order of the rules. -/
theorem violations_eq_map (s : Settings) :
    s.violations = (Rule.all.filter fun r => ¬ r.KeptBy s).map (Rule.violation s) := by
  rw [violations_eq]
  induction Rule.all with
  | nil => rfl
  | cons r rest ih =>
    rw [List.flatMap_cons, ih, List.filter_cons]
    have hbroken := r.isBroken_iff s
    by_cases hr : r.KeptBy s
    · have hkept : r.isBroken s = false := Bool.eq_false_iff.mpr fun hb => hbroken.mp hb hr
      simp [Settings.whenever, hkept, hr]
    · simp [Settings.whenever, hbroken.mpr hr, hr]

/-- Settings without a violation are those that keep all rules. -/
theorem violations_eq_nil_iff (s : Settings) : s.violations = [] ↔ ∀ r : Rule, r.KeptBy s := by
  rw [violations_eq_map, List.map_eq_nil_iff, List.filter_eq_nil_iff]
  simp only [decide_eq_true_eq, Decidable.not_not]
  exact ⟨fun h r => h r r.mem_all, fun h r _ => h r⟩

/-! ## The consumer of valid settings -/

namespace ConsumerSettings

theorem countOr_of_ne_zero {default n : Nat} (h : n ≠ 0) : countOr default n = n := if_neg h

theorem countOr_ne_zero {default : Nat} (h : default ≠ 0) (n : Nat) : countOr default n ≠ 0 := by
  unfold countOr
  split
  · exact h
  · next hn => exact hn

theorem spanOr_of_isZero_eq_false {default d : Duration} (h : d.isZero = false) :
    spanOr default d = d := by
  rw [spanOr, h, if_neg Bool.false_ne_true]

theorem isZero_spanOr {default : Duration} (h : default.isZero = false) (d : Duration) :
    (spanOr default d).isZero = false := by
  unfold spanOr
  split
  · exact h
  · next hd => exact Bool.eq_false_iff.mpr hd

/-- The log target that takes the place of a blank one is not blank. -/
theorem isBlankText_normalized (c : ConsumerSettings) :
    Text.isBlankText c.normalized.logTarget = false := by
  unfold normalized
  dsimp only
  split
  · decide
  · next h => exact Bool.eq_false_iff.mpr h

/-- What was replaced is not replaced again. -/
theorem normalized_normalized (c : ConsumerSettings) : c.normalized.normalized = c.normalized := by
  have htarget := c.isBlankText_normalized
  generalize hn : c.normalized = n at htarget
  have hworkers : n.workers ≠ 0 := hn ▸ countOr_ne_zero (by decide) _
  have hbatch : n.batch ≠ 0 := hn ▸ countOr_ne_zero (by decide) _
  have hreceive : n.receiveTimeout.isZero = false := hn ▸ isZero_spanOr (by decide) _
  have hbackoff : n.errorBackoff.isZero = false := hn ▸ isZero_spanOr (by decide) _
  have hshutdown : n.shutdownTimeout.isZero = false := hn ▸ isZero_spanOr (by decide) _
  rw [normalized, countOr_of_ne_zero hworkers, countOr_of_ne_zero hbatch,
    spanOr_of_isZero_eq_false hreceive, spanOr_of_isZero_eq_false hbackoff,
    spanOr_of_isZero_eq_false hshutdown, htarget, if_neg Bool.false_ne_true]

/-- Settings that a consumer can run on as they are. -/
structure WithinLimits (c : ConsumerSettings) : Prop where
  normalized : c.normalized = c
  workers : 1 ≤ c.workers ∧ c.workers ≤ 256
  batch : 1 ≤ c.batch ∧ c.batch ≤ 2048
  receiveTimeout : (Duration.ofSeconds 1).nanos ≤ c.receiveTimeout.nanos ∧
    c.receiveTimeout.nanos ≤ (Duration.ofSeconds 600).nanos
  shutdownTimeout : (Duration.ofSeconds 1).nanos ≤ c.shutdownTimeout.nanos ∧
    c.shutdownTimeout.nanos ≤ (Duration.ofSeconds 600).nanos
  errorBackoff : (Duration.ofMillis 1).nanos ≤ c.errorBackoff.nanos ∧
    c.errorBackoff.nanos ≤ (Duration.ofMillis 300000).nanos
  logTarget : Text.isBlankText c.logTarget = false

end ConsumerSettings

/-- A count is at least one: what is not positive is not given. -/
theorem one_le_positiveOr {default limit : Nat} (hd : 1 ≤ default) (hl : 1 ≤ limit)
    (n? : Option Int) : 1 ≤ BusSettings.positiveOr default limit n? := by
  unfold BusSettings.positiveOr
  split
  · split <;> omega
  · exact hd

/-- What the rules for the bus say of the effective values. -/
theorem Settings.within_of_keptBy {s : Settings} (h : ∀ r : Rule, r.KeptBy s) :
    s.bus.concurrency ≤ 256 ∧ s.bus.maxMessages ≤ 2048 ∧
      (1 ≤ s.bus.receiveTimeoutSecs ∧ s.bus.receiveTimeoutSecs ≤ 600) ∧
      (1 ≤ s.bus.shutdownTimeoutSecs ∧ s.bus.shutdownTimeoutSecs ≤ 600) ∧
      s.bus.receiveErrorBackoffMs ≤ 300000 := by
  have hkept (r : Rule) : r.isBroken s = false :=
    Bool.eq_false_iff.mpr fun hb => (r.isBroken_iff s).mp hb (h r)
  have hconcurrency := hkept .concurrency
  have hmessages := hkept .maxMessages
  have hreceive := hkept .receiveTimeout
  have hshutdown := hkept .shutdownTimeout
  have hbackoff := hkept .receiveErrorBackoff
  simp only [Rule.isBroken, Bool.or_eq_false_iff, decide_eq_false_iff_not, Nat.not_lt]
    at hconcurrency hmessages hreceive hshutdown hbackoff
  omega

/-- The consumer of valid settings runs on the values that were checked; only a pause of zero is
replaced, by one second. -/
theorem BusSettings.consumer_eq {s : BusSettings} (hreceive : 1 ≤ s.receiveTimeoutSecs)
    (hshutdown : 1 ≤ s.shutdownTimeoutSecs) : s.consumer =
      { ConsumerSettings.ofEntity s.entity with
        workers := s.concurrency
        batch := s.maxMessages
        receiveTimeout := .ofSeconds s.receiveTimeoutSecs
        shutdownTimeout := .ofSeconds s.shutdownTimeoutSecs
        errorBackoff := if s.receiveErrorBackoffMs = 0 then .ofSeconds 1
          else .ofMillis s.receiveErrorBackoffMs } := by
  have hworkers : s.concurrency ≠ 0 :=
    Nat.ne_of_gt (one_le_positiveOr (by decide) (by decide) s.concurrency?)
  have hbatch : s.maxMessages ≠ 0 :=
    Nat.ne_of_gt (one_le_positiveOr (by decide) (by decide) s.maxMessages?)
  have hseconds {n : Nat} (hn : 1 ≤ n) : (Duration.ofSeconds n).isZero = false := by
    refine decide_eq_false (p := (Duration.ofSeconds n).nanos = 0) ?_
    simp only [Duration.ofSeconds, Duration.perSecond]
    omega
  have htarget : Text.isBlankText (ConsumerSettings.ofEntity s.entity).logTarget = false := by
    have hdefault : Text.isBlankText ConsumerSettings.defaultLogTarget = false := by decide
    exact hdefault
  have hbackoff : ConsumerSettings.spanOr ConsumerSettings.defaultErrorBackoff
      (.ofMillis s.receiveErrorBackoffMs) = if s.receiveErrorBackoffMs = 0 then .ofSeconds 1
        else .ofMillis s.receiveErrorBackoffMs := by
    have hzero : (Duration.ofMillis s.receiveErrorBackoffMs).isZero = true ↔
        s.receiveErrorBackoffMs = 0 := by
      refine (decide_eq_true_iff (p := (Duration.ofMillis _).nanos = 0)).trans ?_
      simp only [Duration.ofMillis, Duration.perMilli]
      omega
    simp only [ConsumerSettings.spanOr, hzero]
    rfl
  rw [consumer, ConsumerSettings.normalized]
  dsimp only
  rw [ConsumerSettings.countOr_of_ne_zero hworkers, ConsumerSettings.countOr_of_ne_zero hbatch,
    ConsumerSettings.spanOr_of_isZero_eq_false (hseconds hreceive),
    ConsumerSettings.spanOr_of_isZero_eq_false (hseconds hshutdown), hbackoff, htarget,
    if_neg Bool.false_ne_true]

/-- Settings are valid exactly if they keep the rules. -/
structure Settings.Checked (s : Settings) : Prop where
  valid : s.violations = [] ↔ ∀ r : Rule, r.KeptBy s
  /-- What is wrong is one violation for each broken rule, in the order of the rules, with the
  effective value. -/
  listed : s.violations = (Rule.all.filter fun r => ¬ r.KeptBy s).map (Rule.violation s)
  /-- The consumer of valid settings is within the limits. -/
  consumer : s.violations = [] → s.bus.consumer.WithinLimits
  /-- It runs on the values that were checked. -/
  effective : s.violations = [] → s.bus.consumer =
    { ConsumerSettings.ofEntity s.bus.entity with
      workers := countInEffect 1 18446744073709551615 s.bus.concurrency?
      batch := countInEffect 10 4294967295 s.bus.maxMessages?
      receiveTimeout := .ofSeconds (s.bus.receiveTimeoutSecs?.getD 5)
      shutdownTimeout := .ofSeconds (s.bus.shutdownTimeoutSecs?.getD 30)
      errorBackoff := if s.bus.receiveErrorBackoffMs?.getD 1000 = 0 then .ofSeconds 1
        else .ofMillis (s.bus.receiveErrorBackoffMs?.getD 1000) }

/-- **Validation**: settings are valid exactly if they keep the ten rules, as they were given, and
otherwise there is one violation for each rule that is broken; a consumer of valid settings runs
on the values that were checked, and they are within the limits. -/
theorem Settings.checked (s : Settings) : s.Checked where
  valid := violations_eq_nil_iff s
  listed := violations_eq_map s
  consumer h := by
    obtain ⟨hconcurrency, hmessages, hreceive, hshutdown, hbackoff⟩ :=
      within_of_keptBy ((violations_eq_nil_iff s).mp h)
    have hworkers : 1 ≤ s.bus.concurrency := one_le_positiveOr (by decide) (by decide) _
    have hbatch : 1 ≤ s.bus.maxMessages := one_le_positiveOr (by decide) (by decide) _
    have hfixed : s.bus.consumer.normalized = s.bus.consumer :=
      ConsumerSettings.normalized_normalized _
    have htarget : Text.isBlankText s.bus.consumer.logTarget = false :=
      ConsumerSettings.isBlankText_normalized _
    have heq := BusSettings.consumer_eq hreceive.1 hshutdown.1
    refine ⟨hfixed, ?_, ?_, ?_, ?_, ?_, htarget⟩
    all_goals rw [heq]
    · exact ⟨hworkers, hconcurrency⟩
    · exact ⟨hbatch, hmessages⟩
    · simp only [Duration.ofSeconds, Duration.perSecond]
      omega
    · simp only [Duration.ofSeconds, Duration.perSecond]
      omega
    · dsimp only
      split
      · decide
      · simp only [Duration.ofMillis, Duration.perMilli]
        omega
  effective h := by
    obtain ⟨-, -, hreceive, hshutdown, -⟩ := within_of_keptBy ((violations_eq_nil_iff s).mp h)
    rw [BusSettings.consumer_eq hreceive.1 hshutdown.1, ← positiveOr_eq, ← positiveOr_eq]
    rfl

/-- Too many workers, a count that says nothing, and a first delay beyond the longest one, which
is not given. -/
def hasty : Settings where
  bus := { concurrency? := some 300, maxMessages? := some (-5) }
  retry := { initialDelayMs? := some 10000 }

/-- A longest delay below the first one, which is not given. -/
def curt : Settings where
  retry := { maxDelayMs? := some 50 }

theorem checked_hasty_curt :
    hasty.violations = [.concurrency 300 256, .retryDelays 10000 5000] ∧
      curt.violations = [.retryDelays 100 50] ∧ ({} : Settings).violations = [] ∧
      (∀ r : Rule, r.KeptBy {}) :=
  ⟨(Settings.checked hasty).listed.trans (by decide +kernel),
    (Settings.checked curt).listed.trans (by decide +kernel), by decide +kernel,
    (Settings.checked {}).valid.mp (by decide +kernel)⟩

end PeekLock
