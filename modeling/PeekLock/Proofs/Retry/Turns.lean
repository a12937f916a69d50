import PeekLock.Progress
import PeekLock.Retry.Course

/-!
# PeekLock.Proofs.Retry.Turns

Reasoning about every course of a retried call.

`Turn` lists once what a move can be.  An attempt is the last one if its
answer is final or if the attempts are used up (`lastAttempt`).  At every
point of a call the attempts, the pauses and the records so far are those of
the attempts before (`Standing`), and the token was not cancelled before any
of them (`Reachable.calls_of_cancelled`).
-/

namespace PeekLock.Retry

variable {α : Type} {p : RetryPolicy} {answers : Nat → Except BusError α}

/-! ## The last attempt -/

/-- No further attempt can help. -/
def isFinal : Except BusError α → Bool
  | .ok _ => true
  | .error e => !e.isTransient

/-- The number of the attempt that a call ends with if nobody cancels it. -/
def lastAttempt (p : RetryPolicy) (answers : Nat → Except BusError α) : Nat :=
  ((List.range p.attempts).find? fun n => isFinal (answers n)).getD (p.attempts - 1)

theorem attempts_pos (p : RetryPolicy) : 0 < p.attempts := Nat.le_max_left 1 p.maxAttempts

/-- It is the first whose answer is final, or there is none and it is the last of all. -/
theorem lastAttempt_spec (p : RetryPolicy) (answers : Nat → Except BusError α) :
    lastAttempt p answers < p.attempts ∧
    (∀ n < lastAttempt p answers, isFinal (answers n) = false) ∧
    (isFinal (answers (lastAttempt p answers)) = true ∨
      lastAttempt p answers + 1 = p.attempts) := by
  have hpos := attempts_pos p
  rw [lastAttempt]
  cases hf : (List.range p.attempts).find? fun n => isFinal (answers n) with
  | none =>
    have hnone := List.find?_eq_none.mp hf
    refine ⟨Nat.sub_one_lt_of_lt hpos, fun n hn => ?_, .inr (Nat.sub_add_cancel hpos)⟩
    exact Bool.eq_false_iff.mpr (hnone n (List.mem_range.mpr (Nat.lt_of_lt_pred hn)))
  | some n =>
    obtain ⟨hn, hm, before⟩ := List.find?_range_eq_some.mp hf
    exact ⟨List.mem_range.mp hm, fun i hi => by simpa using before i hi, .inl hn⟩

section

variable {n : Nat}

/-- With a final answer no attempt follows. -/
theorem eq_lastAttempt_of_isFinal (hn : n ≤ lastAttempt p answers)
    (hf : isFinal (answers n) = true) : n = lastAttempt p answers := by
  refine Nat.le_antisymm hn (Nat.le_of_not_lt fun hlt => ?_)
  rw [(lastAttempt_spec p answers).2.1 n hlt] at hf
  contradiction

/-- When the attempts are used up no attempt follows. -/
theorem eq_lastAttempt_of_attempts (hn : n ≤ lastAttempt p answers)
    (hl : ¬ n + 1 < p.attempts) : n = lastAttempt p answers := by
  have hlt := (lastAttempt_spec p answers).1
  omega

/-- Otherwise one follows. -/
theorem lt_lastAttempt (hn : n ≤ lastAttempt p answers) (hf : isFinal (answers n) = false)
    (hl : n + 1 < p.attempts) : n < lastAttempt p answers := by
  refine Nat.lt_of_le_of_ne hn fun heq => ?_
  obtain hfinal | hlast := (lastAttempt_spec p answers).2.2
  · rw [← heq, hf] at hfinal
    contradiction
  · omega

end

/-- What a call returns that nobody cancels. -/
def Returns (p : RetryPolicy) (answers : Nat → Except BusError α) (result : Except BusError α) :
    Prop :=
  (isFinal (answers (lastAttempt p answers)) = true ∧ result = answers (lastAttempt p answers)) ∨
  (lastAttempt p answers + 1 = p.attempts ∧
    ∃ e, answers (lastAttempt p answers) = .error e ∧ e.isTransient = true ∧
      result = .error (.retryExhausted p.attempts e.message))

/-- The records of so many attempts. -/
def failureLogs (p : RetryPolicy) (answers : Nat → Except BusError α) (n : Nat) : List LogRecord :=
  (List.range n).filterMap fun i =>
    match answers i with
    | .ok _ => none
    | .error e => if e.isTransient then some (failureLog p i e) else none

theorem failureLogs_succ_of_isFinal {n : Nat} (h : isFinal (answers n) = true) :
    failureLogs p answers (n + 1) = failureLogs p answers n := by
  rw [failureLogs, List.range_succ, List.filterMap_append, failureLogs, List.append_right_eq_self,
    List.filterMap_cons, List.filterMap_nil]
  cases ho : answers n with
  | ok value => rfl
  | error e =>
    rw [ho, isFinal, Bool.not_eq_true'] at h
    simp [h]

theorem failureLogs_succ {n : Nat} {e : BusError} (h : answers n = .error e)
    (ht : e.isTransient = true) :
    failureLogs p answers (n + 1) = failureLogs p answers n ++ [failureLog p n e] := by
  rw [failureLogs, List.range_succ, List.filterMap_append]
  simp [failureLogs, h, ht]

namespace Course

/-! ## What a move can be -/

/-- A move: when it can happen, and what it leads to. -/
inductive Turn (p : RetryPolicy) (answers : Nat → Except BusError α) (s : Course α) :
    Course α → Prop where
  | cancels : Turn p answers s s.cancel
  | waits (ms : Nat) : Turn p answers s { s with now := s.now + ms }
  /-- An attempt is started. -/
  | tries (n : Nat) (hp : s.point = .trying n) (hc : s.cancelledAfter = none) :
    Turn p answers s (s.begin n)
  /-- The token turns out to be cancelled. -/
  | refrains (n : Nat) (hp : s.point = .trying n) (hc : s.cancelledAfter ≠ none) :
    Turn p answers s (s.conclude (.error cancelled))
  /-- The answer is final. -/
  | returns (n : Nat) (hp : s.point = .calling n) (hf : isFinal (answers n) = true) :
    Turn p answers s (s.conclude (answers n))
  /-- An attempt has failed, and it was the last. -/
  | givesUp (n : Nat) (e : BusError) (hp : s.point = .calling n) (ho : answers n = .error e)
    (ht : e.isTransient = true) (hl : ¬ n + 1 < p.attempts) :
    Turn p answers s
      ({ s with logs := s.logs ++ [failureLog p n e] }.conclude (.error (exhausted p (some e))))
  /-- An attempt has failed, and another one follows. -/
  | pauses (n : Nat) (e : BusError) (hp : s.point = .calling n) (ho : answers n = .error e)
    (ht : e.isTransient = true) (hl : n + 1 < p.attempts) :
    Turn p answers s
      { s with
        logs := s.logs ++ [failureLog p n e]
        pauses := s.pauses ++ [p.pause n]
        point := .pausing n (s.now + (p.pause n).ticks) }
  | wakes (n due : Nat) (hp : s.point = .pausing n due) (hd : due ≤ s.now) :
    Turn p answers s { s with point := .trying (n + 1) }
  | breaksOff (n due : Nat) (hp : s.point = .pausing n due) (hc : s.cancelledAfter ≠ none) :
    Turn p answers s (s.conclude (.error cancelled))

variable {s t : Course α}

/-- What an answer leads to. -/
theorem turn_of_react {n : Nat} (hp : s.point = .calling n) :
    Turn p answers s (s.react p n (answers n)) := by
  cases ho : answers n with
  | ok value =>
    have hf : isFinal (answers n) = true := by rw [ho]; rfl
    have hr := Turn.returns (p := p) n hp hf
    rwa [ho] at hr
  | error e =>
    cases ht : e.isTransient with
    | false =>
      have hf : isFinal (answers n) = true := by rw [ho, isFinal, ht]; rfl
      have hr := Turn.returns (p := p) n hp hf
      rw [ho] at hr
      simpa [react, next, ht] using hr
    | true =>
      by_cases hl : n + 1 < p.attempts
      · simpa only [react, next, ht, if_true, if_pos hl] using Turn.pauses n e hp ho ht hl
      · simpa only [react, next, ht, if_true, if_neg hl] using Turn.givesUp n e hp ho ht hl

theorem turn_of_after {m : Move} (h : s.after p answers m = some t) : Turn p answers s t := by
  cases m with
  | cancel =>
    cases h
    exact .cancels
  | proceed =>
    simp only [after] at h
    split at h
    · next n hp =>
      cases h
      cases hc : s.cancelledAfter with
      | none => exact .tries n hp hc
      | some j => exact .refrains n hp (by simp [hc])
    · contradiction
  | answer =>
    simp only [after] at h
    split at h
    · next n hp =>
      cases h
      exact turn_of_react hp
    · contradiction
  | wake =>
    simp only [after] at h
    split at h
    · next n due hp =>
      obtain ⟨hd, ⟨⟩⟩ := Option.ite_none_right_eq_some.mp h
      exact .wakes n due hp hd
    · contradiction
  | breakOff =>
    simp only [after] at h
    split at h
    · next n due hp =>
      obtain ⟨hc, ⟨⟩⟩ := Option.ite_none_right_eq_some.mp h
      exact .breaksOff n due hp (Option.isSome_iff_ne_none.mp hc)
    · contradiction
  | wait ms =>
    cases h
    exact .waits ms

theorem Leads.trans {u : Course α} (h : Leads p answers s t) (k : Leads p answers t u) :
    Leads p answers s u := by
  induction k with
  | refl => exact h
  | step _ hm ih => exact ih.step hm

/-- **The rule of invariants**, from a given point on. -/
theorem Leads.invariant {P : Course α → Prop} (h : Leads p answers s t) (start : P s)
    (turn : ∀ u v, Leads p answers s u → Turn p answers u v → P u → P v) : P t := by
  induction h with
  | refl => exact start
  | step hs hm ih => exact turn _ _ hs (turn_of_after hm) ih

/-- What some moves lead to is reached. -/
theorem leads_of_run {moves : List Move} (h : s.run p answers moves = some t) :
    Leads p answers s t :=
  keeps_of_foldlM h (.refl s) fun _ _ _ hl hm => hl.step hm

/-! ## How far a call has come -/

/-- After a cancellation no attempt is started. -/
theorem Reachable.calls_of_cancelled (h : s.Reachable p answers) {j : Nat}
    (hj : s.cancelledAfter = some j) : s.calls.length = j := by
  refine h.invariant (P := fun s => ∀ j, s.cancelledAfter = some j → s.calls.length = j)
    (fun j hj => by cases hj) (fun u v _ ht ih j hj => ?_) j hj
  cases ht with
  | cancels =>
    cases hc : u.cancelledAfter with
    | none =>
      rw [cancel, hc] at hj
      exact Option.some.inj hj
    | some i =>
      rw [cancel, hc] at hj
      rw [← Option.some.inj hj]
      exact ih i hc
  | tries n hp hc =>
    rw [begin, hc] at hj
    contradiction
  | _ => exact ih j hj

/-- So many attempts were started, pauses begun, and attempts recorded. -/
def Tally (p : RetryPolicy) (answers : Nat → Except BusError α) (s : Course α)
    (called paused recorded : Nat) : Prop :=
  s.calls.length = called ∧ s.pauses = (List.range paused).map p.pause ∧
    s.logs = failureLogs p answers recorded

/-- How far a call has come at each point. -/
def Standing (p : RetryPolicy) (answers : Nat → Except BusError α) (s : Course α) : Prop :=
  match s.point with
  | .trying n => n ≤ lastAttempt p answers ∧ s.Tally p answers n n n
  | .calling n => n ≤ lastAttempt p answers ∧ s.Tally p answers (n + 1) n n
  | .pausing n _ => n < lastAttempt p answers ∧ s.Tally p answers (n + 1) (n + 1) (n + 1)
  | .ended result =>
    (Returns p answers result ∧ s.Tally p answers (lastAttempt p answers + 1)
      (lastAttempt p answers) (lastAttempt p answers + 1)) ∨
    (result = .error cancelled ∧ ∃ n ≤ lastAttempt p answers, s.cancelledAfter = some n ∧
      s.Tally p answers n n n)

/-- The pauses and the records grow as the policy and the answers say. -/
theorem Tally.pause {called n : Nat} (h : s.Tally p answers called n n) {e : BusError}
    (ho : answers n = .error e) (ht : e.isTransient = true) (point : Point α) :
    Tally p answers
      { s with
        logs := s.logs ++ [failureLog p n e]
        pauses := s.pauses ++ [p.pause n]
        point := point }
      called (n + 1) (n + 1) := by
  obtain ⟨hcalls, hpauses, hlogs⟩ := h
  refine ⟨hcalls, ?_, ?_⟩
  · rw [hpauses, List.range_succ, List.map_append]
    rfl
  · rw [failureLogs_succ ho ht, hlogs]

/-- A move keeps a call where it should be. -/
theorem Turn.standing (ht : Turn p answers s t) (h : s.Standing p answers)
    (hj : ∀ j, s.cancelledAfter = some j → s.calls.length = j) : t.Standing p answers := by
  cases ht with
  | cancels =>
    simp only [Standing, cancel] at h ⊢
    generalize s.point = point at h ⊢
    cases point with
    | ended result =>
      exact h.imp_right fun ⟨hr, n, hn, hc, htally⟩ => ⟨hr, n, hn, by rw [hc]; rfl, htally⟩
    | _ => exact h
  | waits ms => exact h
  | tries n hp hc =>
    rw [Standing, hp] at h
    obtain ⟨hn, hcalls, hpauses, hlogs⟩ := h
    exact ⟨hn, by rw [begin, List.length_append, hcalls]; rfl, hpauses, hlogs⟩
  | refrains n hp hc =>
    rw [Standing, hp] at h
    obtain ⟨hn, htally⟩ := h
    obtain ⟨j, hcj⟩ := Option.ne_none_iff_exists'.mp hc
    obtain rfl : n = j := htally.1.symm.trans (hj j hcj)
    exact .inr ⟨rfl, n, hn, hcj, htally⟩
  | returns n hp hf =>
    rw [Standing, hp] at h
    obtain ⟨hn, hcalls, hpauses, hlogs⟩ := h
    obtain rfl := eq_lastAttempt_of_isFinal hn hf
    refine .inl ⟨.inl ⟨hf, rfl⟩, hcalls, hpauses, ?_⟩
    rw [failureLogs_succ_of_isFinal hf]
    exact hlogs
  | givesUp n e hp ho htr hl =>
    rw [Standing, hp] at h
    obtain ⟨hn, hcalls, hpauses, hlogs⟩ := h
    obtain rfl := eq_lastAttempt_of_attempts hn hl
    have hlast := (lastAttempt_spec p answers).1
    refine .inl ⟨.inr ⟨by omega, e, ho, htr, rfl⟩, hcalls, hpauses, ?_⟩
    rw [failureLogs_succ ho htr, ← hlogs]
    rfl
  | pauses n e hp ho htr hl =>
    rw [Standing, hp] at h
    obtain ⟨hn, htally⟩ := h
    have hf : isFinal (answers n) = false := by rw [ho, isFinal, htr]; rfl
    exact ⟨lt_lastAttempt hn hf hl, htally.pause ho htr _⟩
  | wakes n due hp hd =>
    rw [Standing, hp] at h
    exact h
  | breaksOff n due hp hc =>
    rw [Standing, hp] at h
    obtain ⟨hn, htally⟩ := h
    obtain ⟨j, hcj⟩ := Option.ne_none_iff_exists'.mp hc
    obtain rfl : n + 1 = j := htally.1.symm.trans (hj j hcj)
    exact .inr ⟨rfl, n + 1, hn, hcj, htally⟩

theorem Reachable.standing (h : s.Reachable p answers) : s.Standing p answers :=
  h.invariant ⟨Nat.zero_le _, rfl, rfl, rfl⟩ fun _ _ hu ht ih =>
    ht.standing ih fun _ => Reachable.calls_of_cancelled hu

end Course

end PeekLock.Retry
