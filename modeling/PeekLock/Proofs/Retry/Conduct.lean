import PeekLock.Proofs.Retry.Turns

/-!
# PeekLock.Proofs.Retry.Conduct

What a retried call does, whatever the operation answers, however long it
takes, and whenever the token is cancelled.

If the token is cancelled before no attempt up to the last, that many
attempts are made, with the pauses of the policy between them, and the call
returns what the last one answers.  Otherwise it ends with the attempts that
were started before.  The played calls (`Retry.run`) are among these courses.
-/

namespace PeekLock.Retry.Course

variable {α : Type} {p : RetryPolicy} {answers : Nat → Except BusError α} {s t : Course α}

/-! ## Time -/

/-- No attempt is started before the pause after the one before it is over. -/
structure Spaced (p : RetryPolicy) (s : Course α) : Prop where
  gap : ∀ i a b, s.calls[i]? = some a → s.calls[i + 1]? = some b → a + (p.pause i).ticks ≤ b
  past : ∀ a ∈ s.calls, a ≤ s.now
  /-- While a call pauses, the pause counts from after the attempt on. -/
  pausing : ∀ n due, s.point = .pausing n due →
    ∀ a, s.calls[n]? = some a → a + (p.pause n).ticks ≤ due
  trying : ∀ n, s.point = .trying (n + 1) →
    ∀ a, s.calls[n]? = some a → a + (p.pause n).ticks ≤ s.now

theorem Turn.spaced (ht : Turn p answers s t) (hs : s.Standing p answers) (h : s.Spaced p) :
    t.Spaced p := by
  cases ht with
  | cancels => exact ⟨h.gap, h.past, h.pausing, h.trying⟩
  | waits ms =>
    exact ⟨h.gap, fun a ha => Nat.le_add_right_of_le (h.past a ha), h.pausing,
      fun n hp a ha => Nat.le_add_right_of_le (h.trying n hp a ha)⟩
  | tries n hp =>
    rw [Standing, hp] at hs
    have hlength : s.calls.length = n := hs.2.1
    refine ⟨fun i a b ha hb => ?_, fun a ha => ?_, fun _ _ hp => (by cases hp),
      fun _ hp => (by cases hp)⟩
    · rw [begin, List.getElem?_append] at ha hb
      split at hb
      · next hlt =>
        rw [if_pos (Nat.lt_of_succ_lt hlt)] at ha
        exact h.gap i a b ha hb
      · next hle =>
        obtain ⟨hsub, hnow⟩ := List.getElem?_eq_some_iff.mp hb
        rw [List.length_singleton, Nat.lt_one_iff] at hsub
        obtain rfl : n = i + 1 := by omega
        rw [if_pos (by omega)] at ha
        rw [List.getElem_singleton] at hnow
        exact hnow ▸ h.trying i hp a ha
    · obtain ha | ha := List.mem_append.mp ha
      · exact h.past a ha
      · exact Nat.le_of_eq (List.mem_singleton.mp ha)
  | pauses n e =>
    refine ⟨h.gap, h.past, fun m due hp a ha => ?_, fun _ hp => (by cases hp)⟩
    cases hp
    exact Nat.add_le_add_right (h.past a (List.mem_of_getElem? ha)) _
  | wakes n due hp hd =>
    refine ⟨h.gap, h.past, fun _ _ hp => (by cases hp), fun m hm a ha => ?_⟩
    cases hm
    exact Nat.le_trans (h.pausing n due hp a ha) hd
  | _ => exact ⟨h.gap, h.past, fun _ _ hp => (by cases hp), fun _ hp => (by cases hp)⟩

theorem Reachable.spaced (h : s.Reachable p answers) : s.Spaced p := by
  refine h.invariant (P := Spaced p) ⟨?_, ?_, ?_, ?_⟩ fun _ _ hu ht ih =>
    ht.spaced (Reachable.standing hu) ih
  · intro i a b ha
    cases ha
  · intro a ha
    cases ha
  · intro n due hp
    cases hp
  · intro n hp
    cases hp

/-! ## Played calls -/

/-- The token of a course is cancelled when that of a played call is. -/
def Plays (cancelAt : Option Nat) (s : Course α) : Prop :=
  s.cancelledAfter.isSome = isCancelled cancelAt s.now

/-- A course can be brought to the end that a report tells of. -/
def Ends (p : RetryPolicy) (answers : Nat → Except BusError α) (cancelAt : Option Nat)
    (s : Course α) (r : Report α) : Prop :=
  ∃ t, Leads p answers s t ∧ t.Plays cancelAt ∧ t.point = .ended r.result ∧
    t.calls = s.calls ++ r.calls ∧ t.now = r.finished ∧ t.logs = s.logs ++ r.logs

variable {cancelAt : Option Nat}

/-- Time has passed, the token may have been cancelled, and nothing else has happened. -/
structure Later (cancelAt : Option Nat) (s t : Course α) (now : Nat) : Prop where
  plays : t.Plays cancelAt
  now : t.now = now
  point : t.point = s.point
  calls : t.calls = s.calls
  logs : t.logs = s.logs

/-- Time passes, and the token is cancelled in it when it should be. -/
theorem Plays.pass (p : RetryPolicy) (answers : Nat → Except BusError α) (h : s.Plays cancelAt)
    {now : Nat} (hn : s.now ≤ now) : ∃ t, Leads p answers s t ∧ Later cancelAt s t now := by
  have hwait : Leads p answers s { s with now := now } := by
    refine (Leads.refl s).step (m := .wait (now - s.now)) ?_
    rw [after, Nat.add_sub_cancel' hn]
  cases hc : isCancelled cancelAt now with
  | true => exact ⟨_, hwait.step (m := .cancel) rfl, hc.symm, rfl, rfl, rfl, rfl⟩
  | false =>
    refine ⟨_, hwait, ?_, rfl, rfl, rfl, rfl⟩
    rw [Plays, hc, h]
    cases cancelAt with
    | none => rfl
    | some c =>
      simp only [isCancelled, Option.any_some, decide_eq_false_iff_not] at hc ⊢
      omega

/-- A call that is over has ended. -/
theorem Plays.ends (h : t.Plays cancelAt) {result : Except BusError α}
    (hp : t.point = .ended result) : t.Ends p answers cancelAt (.ended t.now result) :=
  ⟨t, .refl t, h, hp, (List.append_nil _).symm, rfl, (List.append_nil _).symm⟩

/-- An attempt in front of what is left. -/
theorem Ends.of_attempt {u : Course α} {r : Report α} (h : u.Ends p answers cancelAt r)
    (hl : Leads p answers s u) {start : Nat} {logs : List LogRecord}
    (hcalls : u.calls = s.calls ++ [start]) (hlogs : u.logs = s.logs ++ logs) :
    s.Ends p answers cancelAt (r.after start logs) := by
  obtain ⟨t, hut, hplays, hp, hcalls', hnow, hlogs'⟩ := h
  refine ⟨t, hl.trans hut, hplays, hp, ?_, hnow, ?_⟩
  · rw [hcalls', hcalls, List.append_assoc]
    rfl
  · rw [hlogs', hlogs, List.append_assoc]
    rfl

/-- Something in front that neither calls nor logs. -/
theorem Ends.of_leads {u : Course α} {r : Report α} (h : u.Ends p answers cancelAt r)
    (hl : Leads p answers s u) (hcalls : u.calls = s.calls) (hlogs : u.logs = s.logs) :
    s.Ends p answers cancelAt r := by
  obtain ⟨t, hut, hplays, hp, hcalls', hnow, hlogs'⟩ := h
  exact ⟨t, hl.trans hut, hplays, hp, hcalls ▸ hcalls', hnow, hlogs ▸ hlogs'⟩

/-- An attempt is made, and the token may be cancelled while the operation runs. -/
theorem Plays.attempts (p : RetryPolicy) (answers : Nat → Except BusError α) (hs : s.Plays cancelAt)
    {n : Nat} (hp : s.point = .trying n) (hc : isCancelled cancelAt s.now = false) (takes : Nat) :
    ∃ t, Later cancelAt (s.begin n) t (s.now + takes) ∧
      Leads p answers s (t.react p n (answers n)) := by
  have hnone : s.cancelledAfter.isSome = false := hs.trans hc
  have hbegin : Leads p answers s (s.begin n) := by
    refine (Leads.refl s).step (m := .proceed) ?_
    simp only [after, hp, hnone]
    rfl
  have hbegun : (s.begin n).Plays cancelAt := hs
  obtain ⟨t, hruns, ht⟩ := hbegun.pass p answers (Nat.le_add_right s.now takes)
  refine ⟨t, ht, (hbegin.trans hruns).step (m := .answer) ?_⟩
  simp only [after, ht.point, begin]

/-- A call that finds its token cancelled before an attempt is over. -/
theorem Plays.ends_trying (hs : s.Plays cancelAt) {n : Nat} (hp : s.point = .trying n)
    (hc : isCancelled cancelAt s.now = true) :
    s.Ends p answers cancelAt (.ended s.now (.error cancelled)) := by
  have hsome : s.cancelledAfter.isSome = true := hs.trans hc
  have hover : (s.conclude (.error cancelled)).Plays cancelAt := hs
  refine (hover.ends rfl).of_leads ((Leads.refl s).step (m := .proceed) ?_) rfl rfl
  simp only [after, hp, hsome, if_true]

/-- A call whose token is cancelled during a pause is over. -/
theorem Plays.ends_pausing (hs : s.Plays cancelAt) {n due now : Nat} (hp : s.point = .pausing n due)
    (hn : s.now ≤ now) (hc : isCancelled cancelAt now = true) :
    s.Ends p answers cancelAt (.ended now (.error cancelled)) := by
  obtain ⟨t, hl, ht⟩ := hs.pass p answers hn
  have hsome : t.cancelledAfter.isSome = true := by rw [ht.plays, ht.now, hc]
  have hover : (t.conclude (.error cancelled)).Plays cancelAt := ht.plays
  have hmove : t.after p answers .breakOff = some (t.conclude (.error cancelled)) := by
    simp only [after, ht.point, hp, hsome, if_true]
  have hends := (hover.ends rfl).of_leads (hl.step hmove) ht.calls ht.logs
  rwa [show (t.conclude (.error cancelled)).now = now from ht.now] at hends

/-- A pause that is not broken off leads to the next attempt. -/
theorem Plays.ends_waking (hs : s.Plays cancelAt) {n due : Nat} (hp : s.point = .pausing n due)
    (hn : s.now ≤ due) {r : Report α}
    (next : ∀ t : Course α, t.point = .trying (n + 1) → t.now = due → t.Plays cancelAt →
      t.Ends p answers cancelAt r) : s.Ends p answers cancelAt r := by
  obtain ⟨t, hl, ht⟩ := hs.pass p answers hn
  have hmove : t.after p answers .wake = some { t with point := .trying (n + 1) } := by
    simp only [after, ht.point, hp, ht.now, Nat.le_refl, if_true]
  have hnext := next { t with point := .trying (n + 1) } rfl ht.now ht.plays
  exact hnext.of_leads (hl.step hmove) ht.calls ht.logs

theorem next_eq_pause {n : Nat} {answer : Except BusError α} {e : BusError} {length : Duration}
    (h : next p n answer = .pause e length) : n + 1 < p.attempts := by
  cases answer with
  | ok value => cases h
  | error e' =>
    rw [next] at h
    split at h
    · split at h
      · next hl => exact hl
      · cases h
    · cases h

/-! What an answer leads to, by what follows it. -/

theorem react_done {n : Nat} {answer result : Except BusError α}
    (h : next p n answer = .done result) : s.react p n answer = s.conclude result := by
  rw [react, h]

theorem react_giveUp {n : Nat} {answer : Except BusError α} {e : BusError}
    (h : next p n answer = .giveUp e) : s.react p n answer =
      { s with logs := s.logs ++ [failureLog p n e] }.conclude (.error (exhausted p (some e))) := by
  rw [react, h]

theorem react_pause {n : Nat} {answer : Except BusError α} {e : BusError} {length : Duration}
    (h : next p n answer = .pause e length) : s.react p n answer =
      { s with
        logs := s.logs ++ [failureLog p n e]
        pauses := s.pauses ++ [length]
        point := .pausing n (s.now + length.ticks) } := by
  rw [react, h]

/-- **A played call** is a course of the call, from any attempt on. -/
theorem Plays.ends_runFrom {operation : Nat → Attempt α}
    (ho : ∀ i, (operation i).result = answers i) {left attempt : Nat} (last : Option BusError)
    (hleft : attempt + left = p.attempts) (hpos : 0 < left) (hp : s.point = .trying attempt)
    (hs : s.Plays cancelAt) :
    s.Ends p answers cancelAt (runFrom p operation cancelAt attempt s.now last left) := by
  induction left generalizing attempt s last with
  | zero => contradiction
  | succ left ih =>
    rw [runFrom]
    cases hc : isCancelled cancelAt s.now with
    | true => exact hs.ends_trying hp hc
    | false =>
      obtain ⟨t, ht, hanswer⟩ := hs.attempts p answers hp hc (operation attempt).takes
      rw [← ho] at hanswer
      simp only [Bool.false_eq_true, if_false, ← ht.now]
      cases hn : next p attempt (operation attempt).result with
      | done result =>
        rw [react_done hn] at hanswer
        have hover : (t.conclude result).Plays cancelAt := ht.plays
        refine (hover.ends rfl).of_attempt hanswer ht.calls ?_
        rw [List.append_nil]
        exact ht.logs
      | giveUp e =>
        rw [react_giveUp hn] at hanswer
        refine Ends.of_attempt (Plays.ends ?_ rfl) hanswer ht.calls ?_
        · exact ht.plays
        · show t.logs ++ _ = _
          rw [ht.logs]
          rfl
      | pause e length =>
        rw [react_pause hn] at hanswer
        have hl := next_eq_pause hn
        have hpausing : Plays cancelAt ({ t with
            logs := t.logs ++ [failureLog p attempt e]
            pauses := t.pauses ++ [length]
            point := .pausing attempt (t.now + length.ticks) } : Course α) := ht.plays
        have hwakes : Ends p answers cancelAt _ (runFrom p operation cancelAt (attempt + 1)
            (t.now + length.ticks) (some e) left) :=
          hpausing.ends_waking rfl (Nat.le_add_right t.now length.ticks) fun u hu hnow hplays => by
            rw [← hnow]
            exact ih (some e) (by omega) (by omega) hu hplays
        refine Ends.of_attempt ?_ hanswer ht.calls ?_
        · split
          · next c =>
            split
            · next hc =>
              exact hpausing.ends_pausing rfl (Nat.le_max_right c t.now)
                (decide_eq_true (Nat.le_max_left c t.now))
            · exact hwakes
          · exact hwakes
        · show t.logs ++ _ = _
          rw [ht.logs]
          rfl

/-! ## Every course -/

/-- A time of cancellation that changes nothing about a token. -/
def asItIs (s : Course α) : Option Nat := if s.cancelledAfter.isSome then some 0 else none

theorem isCancelled_asItIs (s : Course α) (now : Nat) :
    isCancelled s.asItIs now = s.cancelledAfter.isSome := by
  rw [asItIs]
  split
  · next h => rw [h]; rfl
  · next h => rw [Bool.eq_false_iff.mpr h]; rfl

/-- A call can be brought to its end, with its token as it is. -/
def CanEnd (p : RetryPolicy) (answers : Nat → Except BusError α) (s : Course α) : Prop :=
  ∃ t result, Leads p answers s t ∧ t.point = .ended result ∧
    t.cancelledAfter.isSome = s.cancelledAfter.isSome

theorem CanEnd.of_leads (h : t.CanEnd p answers) (hl : Leads p answers s t)
    (hc : t.cancelledAfter = s.cancelledAfter) : s.CanEnd p answers := by
  obtain ⟨u, result, htu, hp, hu⟩ := h
  exact ⟨u, result, hl.trans htu, hp, hc ▸ hu⟩

theorem Reachable.canEnd_trying (h : s.Reachable p answers) {n : Nat} (hp : s.point = .trying n) :
    s.CanEnd p answers := by
  have hn : n ≤ lastAttempt p answers := by
    have hs := h.standing
    rw [Standing, hp] at hs
    exact hs.1
  have hlt := (lastAttempt_spec p answers).1
  have hleft : n + (p.attempts - n) = p.attempts := by omega
  have hpos : 0 < p.attempts - n := by omega
  have hs : s.Plays s.asItIs := (isCancelled_asItIs s s.now).symm
  have hends : s.Ends p answers s.asItIs
      (runFrom p (fun i => ⟨answers i, 0⟩) s.asItIs n s.now none (p.attempts - n)) := by
    refine hs.ends_runFrom ?_ none hleft hpos hp
    exact fun _ => rfl
  obtain ⟨t, hl, hplays, hover, -⟩ := hends
  exact ⟨t, _, hl, hover, hplays.trans (isCancelled_asItIs s t.now)⟩

theorem Reachable.canEnd_pausing (h : s.Reachable p answers) {n due : Nat}
    (hp : s.point = .pausing n due) : s.CanEnd p answers := by
  have hl : Leads p answers s
      { s with now := s.now + (due - s.now), point := .trying (n + 1) } := by
    refine ((Leads.refl s).step (m := .wait (due - s.now)) rfl).step (m := .wake) ?_
    simp only [after, hp, if_pos (show due ≤ s.now + (due - s.now) by omega)]
  exact (canEnd_trying (Leads.trans h hl) rfl).of_leads hl rfl

/-- **Every call can be brought to its end**, if only the operation answers. -/
theorem Reachable.canEnd (h : s.Reachable p answers) : s.CanEnd p answers := by
  cases hp : s.point with
  | ended result => exact ⟨s, result, .refl s, hp, rfl⟩
  | trying n => exact h.canEnd_trying hp
  | pausing n due => exact h.canEnd_pausing hp
  | calling n =>
    have hl : Leads p answers s (s.react p n (answers n)) := by
      refine (Leads.refl s).step (m := .answer) ?_
      simp only [after, hp]
    have hreached := Leads.trans h hl
    cases hn : next p n (answers n) with
    | done result =>
      rw [react_done hn] at hl
      exact ⟨_, result, hl, rfl, rfl⟩
    | giveUp e =>
      rw [react_giveUp hn] at hl
      exact ⟨_, _, hl, rfl, rfl⟩
    | pause e length =>
      rw [react_pause hn] at hl hreached
      exact (canEnd_pausing hreached rfl).of_leads hl rfl

/-- What a retried call does, given the delays of its policy. -/
structure Conduct (p : RetryPolicy) (answers : Nat → Except BusError α) (delay : Nat → Duration)
    (s : Course α) : Prop where
  /-- The last attempt is the first whose answer is final, or the last of all. -/
  last : lastAttempt p answers < p.attempts ∧
    (∀ n < lastAttempt p answers, isFinal (answers n) = false) ∧
    (isFinal (answers (lastAttempt p answers)) = true ∨ lastAttempt p answers + 1 = p.attempts)
  /-- No attempt is made after it. -/
  bounded : s.calls.length ≤ lastAttempt p answers + 1
  /-- Every pause follows an attempt, and every other attempt a pause. -/
  alternate : s.pauses.length ≤ s.calls.length ∧ s.calls.length ≤ s.pauses.length + 1
  /-- The pauses are as long as the policy says. -/
  delays : s.pauses = (List.range s.pauses.length).map delay
  /-- They are waited out before the next attempt. -/
  spaced : ∀ i a b, s.calls[i]? = some a → s.calls[i + 1]? = some b → a + (delay i).ticks ≤ b
  /-- If the token was not cancelled before the last attempt, the call returns what that
  attempt and the policy say. -/
  completed : ∀ result, s.point = .ended result →
    (∀ j, s.cancelledAfter = some j → lastAttempt p answers < j) →
      s.calls.length = lastAttempt p answers + 1 ∧
      s.pauses = (List.range (lastAttempt p answers)).map delay ∧ Returns p answers result
  /-- If it was, no attempt is made after that. -/
  cancelled : ∀ result j, s.point = .ended result → s.cancelledAfter = some j →
    j ≤ lastAttempt p answers →
      s.calls.length = j ∧ result = .error (.cancelled "retry cancelled")
  /-- Every failed attempt is recorded. -/
  logged : ∀ result, s.point = .ended result → s.logs = failureLogs p answers s.calls.length
  canEnd : s.CanEnd p answers

/-- How the numbers of attempts and pauses fit together. -/
theorem Standing.counts (h : s.Standing p answers) :
    s.calls.length ≤ lastAttempt p answers + 1 ∧ s.pauses.length ≤ lastAttempt p answers ∧
    s.pauses.length ≤ s.calls.length ∧ s.calls.length ≤ s.pauses.length + 1 ∧
    s.pauses = (List.range s.pauses.length).map p.pause := by
  have hcounts : ∃ called paused recorded, s.Tally p answers called paused recorded ∧
      called ≤ lastAttempt p answers + 1 ∧ paused ≤ lastAttempt p answers ∧
      paused ≤ called ∧ called ≤ paused + 1 := by
    rw [Standing] at h
    split at h
    · exact ⟨_, _, _, h.2, by omega, by omega, by omega, by omega⟩
    · exact ⟨_, _, _, h.2, by omega, by omega, by omega, by omega⟩
    · exact ⟨_, _, _, h.2, by omega, by omega, by omega, by omega⟩
    · obtain ⟨-, htally⟩ | ⟨-, n, hn, -, htally⟩ := h
      · exact ⟨_, _, _, htally, by omega, by omega, by omega, by omega⟩
      · exact ⟨_, _, _, htally, by omega, by omega, by omega, by omega⟩
  obtain ⟨called, paused, recorded, ⟨hcalls, hpauses, -⟩, hle⟩ := hcounts
  have hlength : s.pauses.length = paused := by rw [hpauses, List.length_map, List.length_range]
  rw [hcalls, hlength]
  exact ⟨hle.1, hle.2.1, hle.2.2.1, hle.2.2.2, hpauses⟩

theorem Reachable.conduct (h : s.Reachable p answers) {delay : Nat → Duration}
    (hd : ∀ i, i + 1 < p.attempts → p.delay? i = some (delay i)) : s.Conduct p answers delay := by
  have hs := h.standing
  obtain ⟨hcalls, hpauses, hle, hle', hlengths⟩ := hs.counts
  have hlt := (lastAttempt_spec p answers).1
  have hpause : ∀ i < lastAttempt p answers, p.pause i = delay i := fun i hi => by
    rw [RetryPolicy.pause, hd i (by omega), Option.getD_some]
  have hmap : ∀ n ≤ lastAttempt p answers,
      (List.range n).map p.pause = (List.range n).map delay := fun n hn =>
    List.map_congr_left fun i hi => hpause i (Nat.lt_of_lt_of_le (List.mem_range.mp hi) hn)
  refine ⟨lastAttempt_spec p answers, hcalls, ⟨hle, hle'⟩, (hmap _ hpauses) ▸ hlengths,
    fun i a b ha hb => ?_, ?_, ?_, ?_, h.canEnd⟩
  · obtain ⟨hi, -⟩ := List.getElem?_eq_some_iff.mp hb
    rw [← hpause i (by omega)]
    exact h.spaced.gap i a b ha hb
  · intro result hp hnone
    rw [Standing, hp] at hs
    obtain ⟨hreturns, hcalls, hpauses, -⟩ | ⟨-, n, hn, hc, -⟩ := hs
    · exact ⟨hcalls, hpauses.trans (hmap _ (Nat.le_refl _)), hreturns⟩
    · exact absurd (hnone n hc) (Nat.not_lt.mpr hn)
  · intro result j hp hj hjn
    have hlength := h.calls_of_cancelled hj
    rw [Standing, hp] at hs
    obtain ⟨-, hcalls, -⟩ | ⟨hresult, -⟩ := hs
    · omega
    · exact ⟨hlength, hresult⟩
  · intro result hp
    rw [Standing, hp] at hs
    obtain ⟨-, hcalls, -, hlogs⟩ | ⟨-, n, -, -, hcalls, -, hlogs⟩ := hs
    · rw [hlogs, hcalls]
    · rw [hlogs, hcalls]

/-- **A played call** takes one of these courses. -/
theorem exists_reachable_run {operation : Nat → Attempt α}
    (ho : ∀ i, (operation i).result = answers i) (cancelAt : Option Nat) :
    ∃ t : Course α, t.Reachable p answers ∧ t.Plays cancelAt ∧
      t.point = .ended (Retry.run p operation cancelAt).result ∧
      t.calls = (Retry.run p operation cancelAt).calls ∧
      t.now = (Retry.run p operation cancelAt).finished ∧
      t.logs = (Retry.run p operation cancelAt).logs := by
  have hstart : ∃ s : Course α, s.Reachable p answers ∧ s.Plays cancelAt ∧ s.now = 0 ∧
      s.point = .trying 0 ∧ s.calls = [] ∧ s.logs = [] := by
    cases hc : isCancelled cancelAt 0 with
    | true => exact ⟨_, (Leads.refl _).step (m := .cancel) rfl, hc.symm, rfl, rfl, rfl, rfl⟩
    | false => exact ⟨_, Leads.refl _, hc.symm, rfl, rfl, rfl, rfl⟩
  obtain ⟨s, hreached, hplays, hnow, hp, hcalls, hlogs⟩ := hstart
  have hends := hplays.ends_runFrom ho none (Nat.zero_add p.attempts) (attempts_pos p) hp
  rw [hnow] at hends
  obtain ⟨t, hl, hplays', hover, hcalls', hnow', hlogs'⟩ := hends
  rw [hcalls, List.nil_append] at hcalls'
  rw [hlogs, List.nil_append] at hlogs'
  exact ⟨t, Leads.trans hreached hl, hplays', hover, hcalls', hnow', hlogs'⟩

/-- **Every retried call**, whatever the operation answers and however long it takes, and
whenever the token is cancelled; a played call is one of them. -/
theorem conducts (p : RetryPolicy) (answers : Nat → Except BusError α) {delay : Nat → Duration}
    (hd : ∀ i, i + 1 < p.attempts → p.delay? i = some (delay i)) :
    (∀ s : Course α, s.Reachable p answers → s.Conduct p answers delay) ∧
    (∀ (operation : Nat → Attempt α) (cancelAt : Option Nat),
      (∀ i, (operation i).result = answers i) →
        ∃ t : Course α, t.Reachable p answers ∧ t.Plays cancelAt ∧
          t.point = .ended (Retry.run p operation cancelAt).result ∧
          t.calls = (Retry.run p operation cancelAt).calls ∧
          t.now = (Retry.run p operation cancelAt).finished ∧
          t.logs = (Retry.run p operation cancelAt).logs) :=
  ⟨fun _ hs => hs.conduct hd, fun _ cancelAt ho => exists_reachable_run ho cancelAt⟩

/-- Two attempts fail, the third succeeds. -/
def busyTwice (n : Nat) : Attempt Nat := ⟨if n < 2 then .error (.sendFailed "busy") else .ok 7, 5⟩

/-- The delays of the default policy. -/
def doubling (i : Nat) : Duration := .ofMillis (100 <<< i)

theorem delay?_default (i : Nat) (hi : i + 1 < RetryPolicy.default.attempts) :
    RetryPolicy.default.delay? i = some (doubling i) := by
  match i, hi with
  | 0, _ => decide +kernel
  | 1, _ => decide +kernel
  | n + 2, hi => exact absurd hi (by simp [RetryPolicy.attempts, RetryPolicy.default])

/-- The second call is cancelled while it pauses for the first time. -/
theorem conducts_busyTwice :
    (∃ t : Course Nat, t.point = .ended (.ok 7) ∧ t.calls = [0, 105, 310] ∧
      t.pauses = [.ofMillis 100, .ofMillis 200] ∧
      t.Conduct .default (fun n => (busyTwice n).result) doubling) ∧
    (∃ t : Course Nat, t.point = .ended (.error cancelled) ∧ t.calls = [0] ∧ t.now = 50 ∧
      t.cancelledAfter = some 1 ∧
      t.Conduct .default (fun n => (busyTwice n).result) doubling) := by
  obtain ⟨hall, hplayed⟩ :=
    conducts .default (fun n => (busyTwice n).result) delay?_default
  refine ⟨?_, ?_⟩
  · obtain ⟨t, hreached, hplays, hover, hcalls, -, -⟩ := hplayed busyTwice none fun _ => rfl
    have hconduct := hall t hreached
    have hnone : t.cancelledAfter = none := by
      rw [← Option.isNone_iff_eq_none, ← Option.not_isSome, hplays]
      rfl
    obtain ⟨-, hpauses, hreturns⟩ := hconduct.completed _ hover fun j hj => by simp [hnone] at hj
    have hcalled : (Retry.run .default busyTwice none).calls = [0, 105, 310] := by decide +kernel
    obtain ⟨-, hresult⟩ | ⟨-, e, herror, -⟩ := hreturns
    · exact ⟨t, hover.trans (congrArg _ hresult), hcalls.trans hcalled, hpauses, hconduct⟩
    · cases herror
  · obtain ⟨t, hreached, hplays, hover, hcalls, hnow, -⟩ := hplayed busyTwice (some 50) fun _ => rfl
    have hconduct := hall t hreached
    have hreport : (Retry.run .default busyTwice (some 50)).calls = [0] ∧
        (Retry.run .default busyTwice (some 50)).finished = 50 := by decide +kernel
    rw [hreport.1] at hcalls
    rw [hreport.2] at hnow
    rw [Plays, hnow] at hplays
    obtain ⟨j, hj⟩ := Option.isSome_iff_exists.mp (hplays.trans rfl)
    obtain rfl : 1 = j := by
      have hlength := Reachable.calls_of_cancelled hreached hj
      rwa [hcalls] at hlength
    obtain ⟨-, hresult⟩ := hconduct.cancelled _ 1 hover hj (by decide)
    exact ⟨t, hover.trans (congrArg _ hresult), hcalls, hnow, hj, hconduct⟩

end PeekLock.Retry.Course
