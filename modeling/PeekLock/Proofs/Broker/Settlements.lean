import PeekLock.Proofs.Broker.Runs
import PeekLock.Proofs.Broker.Sections

/-!
# PeekLock.Proofs.Broker.Settlements

What a settlement does, step by step, and what it is answered.

A settlement asks the bus twice: whether its receiver is open and no fault
is set, and whether the receiver holds a lock under the token.  If one of
the answers is no, it ends there, and has changed nothing (`Refused`).
Otherwise it takes the lock away, and can only end well.

The answer is given twice: for a settlement that nothing interrupts
(`Answers`), and for one that takes turns with other calls, whose two
questions are about two different states (`Passed`, `Released`).
-/

namespace PeekLock.Broker

/-! ## One step of a settlement -/

namespace Settle

/-- Why a settlement is refused, and with what. -/
inductive Refused (b : Broker) (c : Settle) : BusError → Prop where
  | closed (h : b.isOpen c.receiver = false) : Refused b c .receiverClosed
  | fault (e : BusError) (ho : b.isOpen c.receiver = true) (he : fault? b c.verdict = some e) :
    Refused b c e
  | lost (h : ∀ l ∈ b.locks, l.token = c.token → l.receiver ≠ c.receiver.id) :
    Refused b c (.lockLost c.token.text)

/-- Whether a settlement has released its lock. -/
def Point.hasReleased : Point → Bool
  | .recording _ => true
  | .announcing => true
  | _ => false

/-- How a settlement goes on. -/
inductive GoesOn (b : Broker) (c : Settle) : Settle → Prop where
  | passed (hp : c.point = .readingFault) (ho : b.isOpen c.receiver = true)
    (hf : fault? b c.verdict = none) (hs : (c.step b).state = b) :
    GoesOn b c { c with point := .releasing }
  | released (l : Lock) (hp : c.point = .releasing) (hl : l ∈ b.locks) (ht : l.token = c.token)
    (hr : l.receiver = c.receiver.id) (hs : (c.step b).state = b.unlock c.token) :
    GoesOn b c { c with point := .recording l }
  | recorded (l : Lock) (hp : c.point = .recording l) : GoesOn b c { c with point := .announcing }

theorem step_on {b : Broker} {c c' : Settle} (h : (c.step b).progress = .on c') :
    GoesOn b c c' := by
  obtain ⟨r, token, verdict, point⟩ := c
  cases point with
  | readingFault =>
    simp only [step] at h
    split at h
    · next hopen =>
      split at h
      · contradiction
      · next hfault =>
        cases h
        exact .passed rfl hopen hfault (by simp only [step, hopen, hfault, if_true])
    · contradiction
  | releasing =>
    simp only [step] at h
    split at h
    · next l hl =>
      cases h
      obtain ⟨hmem, ht, hr⟩ := mem_of_lock? hl
      exact .released l rfl hmem ht hr (by simp only [step, hl])
    · contradiction
  | recording l =>
    cases verdict with
    | complete => contradiction
    | abandon =>
      cases h
      exact .recorded l rfl
  | announcing => contradiction

/-- A settlement that goes on is still the same. -/
theorem same_of_step {b : Broker} {c c' : Settle} (h : (c.step b).progress = .on c') :
    c'.receiver = c.receiver ∧ c'.token = c.token ∧ c'.verdict = c.verdict := by
  cases step_on h <;> exact ⟨rfl, rfl, rfl⟩

/-- A settlement that ends with an error has changed nothing. -/
theorem step_error {b : Broker} {c : Settle} {e : BusError}
    (h : (c.step b).progress = .done (.error e)) : (c.step b).state = b ∧ Refused b c e := by
  obtain ⟨r, token, verdict, point⟩ := c
  cases point with
  | readingFault =>
    simp only [step] at h ⊢
    split at h
    · next hopen =>
      split at h
      · next f hf =>
        injection h with h
        injection h with h
        subst h
        rw [if_pos hopen]
        exact ⟨rfl, .fault f hopen hf⟩
      · contradiction
    · next hclosed =>
      cases h
      rw [if_neg hclosed]
      exact ⟨rfl, .closed (Bool.not_eq_true _ ▸ hclosed)⟩
  | releasing =>
    simp only [step] at h ⊢
    split at h
    · contradiction
    · next hl =>
      cases h
      exact ⟨rfl, .lost (lock?_eq_none_iff.mp hl)⟩
  | recording l => cases verdict <;> cases h
  | announcing => cases h

/-- Only a settlement that has released its lock ends well. -/
theorem step_ok {b : Broker} {c : Settle} (h : (c.step b).progress = .done (.ok ())) :
    c.point.hasReleased = true := by
  obtain ⟨r, token, verdict, point⟩ := c
  cases point with
  | readingFault =>
    simp only [step] at h
    split at h
    · split at h <;> cases h
    · cases h
  | releasing => simp only [step] at h; split at h <;> cases h
  | recording l => rfl
  | announcing => rfl

/-- A settlement that has released its lock ends well, or goes on to do so. -/
theorem step_of_hasReleased (b : Broker) {c : Settle} (h : c.point.hasReleased = true) :
    (c.step b).progress = .done (.ok ()) ∨
      ∃ d, (c.step b).progress = .on d ∧ d.point.hasReleased = true := by
  obtain ⟨r, token, verdict, point⟩ := c
  cases point with
  | recording l =>
    cases verdict with
    | complete => exact .inl rfl
    | abandon => exact .inr ⟨_, rfl, rfl⟩
  | announcing => exact .inl rfl
  | _ => contradiction

/-- What a refused settlement answers, when its receiver is asked for first, the fault
next and the lock last. -/
def refusal (b : Broker) (r : Receiver) (token : LockToken) (verdict : Verdict) : BusError :=
  if b.isOpen r then (fault? b verdict).getD (.lockLost token.text) else .receiverClosed

end Settle

/-- Only a settlement goes on as a settlement. -/
theorem Call.settling_of_step {now : Nat} {b : Broker} {c : Call} {c' : Settle}
    (h : (c.step now b).progress = .on (.settling c')) :
    ∃ k, c = .settling k ∧ (k.step b).progress = .on c' := by
  cases c with
  | settling k =>
    obtain ⟨c', hp, hc⟩ := Progress.map_eq_on h
    cases hc
    exact ⟨k, rfl, hp⟩
  | subscribing topic name => contradiction
  | arranging faults => contradiction
  | _ =>
    obtain ⟨_, -, hc⟩ := Progress.map_eq_on h
    cases hc

namespace Traffic

/-- A settlement on its way after a step was on its way before, or it took the step. -/
theorem settling_of_advance {s : Traffic} {i j began began' : Nat} {c : Call} {d : Settle}
    (hi : s.calls[i]? = some ⟨began, .on c⟩)
    (h : (s.advance i began c).calls[j]? = some ⟨began', .on (.settling d)⟩) :
    i ≠ j ∧ s.calls[j]? = some ⟨began', .on (.settling d)⟩ ∨
      i = j ∧ began' = began ∧ ∃ k, c = .settling k ∧ (k.step s.broker).progress = .on d := by
  refine (call_of_advance hi h).imp_right fun ⟨hij, hbegan, hp⟩ => ⟨hij, hbegan, ?_⟩
  exact Call.settling_of_step hp

/-- A settlement that has just begun has asked nothing. -/
theorem settling_of_accept {s : Traffic} {q : Request} {j began : Nat} {d : Settle}
    (h : (s.accept q).calls[j]? = some ⟨began, .on (.settling d)⟩) :
    s.calls[j]? = some ⟨began, .on (.settling d)⟩ ∨ began = s.now ∧ d.point = .readingFault := by
  refine (call_of_accept h).imp_right fun ⟨hbegan, hq⟩ => ⟨hbegan, ?_⟩
  cases q <;> cases hq
  rfl

/-! ## A settlement that nothing interrupts -/

/-- Left alone, the call of that number ends, and so. -/
inductive Alone (i : Nat) (o : Outcome) : Traffic → Traffic → Prop where
  | done {s : Traffic} {began : Nat} (h : s.calls[i]? = some ⟨began, .done o⟩) : Alone i o s s
  | step {s t u : Traffic} (h : s.after (.advance i) = some t) (ht : Alone i o t u) : Alone i o s u

/-- The answer of a settlement, by what the bus was before it. -/
structure Answer (b after : Broker) (r : Receiver) (token : LockToken) (verdict : Verdict)
    (result : Except BusError Unit) : Prop where
  ok_iff : result = .ok () ↔ b.isOpen r = true ∧ Settle.fault? b verdict = none ∧
    ∃ l ∈ b.locks, l.token = token ∧ l.receiver = r.id
  unlocked : result = .ok () → after.locks = b.locks.filter (·.token ≠ token)
  refused : ∀ e, result = .error e → e = Settle.refusal b r token verdict ∧ after = b

/-- A settlement that is asked for now, and that nothing interrupts, is answered. -/
def Answers (s : Traffic) (r : Receiver) (token : LockToken) (verdict : Verdict) : Prop :=
  ∃ t, s.after (.begin (.settle r token verdict)) = some t ∧ ∃ result u,
    Alone s.calls.length (.settled result) t u ∧ Answer s.broker u.broker r token verdict result

/-- A settlement can always take its next step. -/
theorem after_of_settling {s : Traffic} {i began : Nat} {c : Settle}
    (hi : s.calls[i]? = some ⟨began, .on (.settling c)⟩) :
    ∃ t, s.after (.advance i) = some t ∧ t.broker = (c.step s.broker).state ∧
      t.calls[i]? = some ⟨began, (c.step s.broker).progress.map .settling .settled⟩ :=
  ⟨s.advance i began (.settling c), after_advance hi rfl, rfl, getElem?_advance hi⟩

/-- A settlement whose next step is its last ends with it. -/
theorem alone_of_done {s : Traffic} {i began : Nat} {c : Settle} {result : Except BusError Unit}
    (hi : s.calls[i]? = some ⟨began, .on (.settling c)⟩)
    (h : (c.step s.broker).progress = .done result) :
    ∃ u, Alone i (.settled result) s u ∧ u.broker = (c.step s.broker).state := by
  obtain ⟨t, ht, hb, htc⟩ := after_of_settling hi
  rw [h] at htc
  exact ⟨t, .step ht (.done htc), hb⟩

/-- A settlement that has released its lock ends well, and touches no other. -/
theorem alone_of_recording {s : Traffic} {i began : Nat} {r : Receiver} {token : LockToken}
    {verdict : Verdict} {l : Lock}
    (hi : s.calls[i]? = some ⟨began, .on (.settling ⟨r, token, verdict, .recording l⟩)⟩) :
    ∃ u, Alone i (.settled (.ok ())) s u ∧ u.broker.locks = s.broker.locks := by
  cases verdict with
  | complete =>
    obtain ⟨u, hu, hb⟩ := alone_of_done hi rfl
    exact ⟨u, hu, by rw [hb]; rfl⟩
  | abandon =>
    obtain ⟨t, ht, htb, htc⟩ := after_of_settling hi
    obtain ⟨u, hu, hb⟩ := alone_of_done htc rfl
    exact ⟨u, .step ht hu, by rw [hb, htb]; rfl⟩

/-- A settlement that was let through is answered by whether it finds its lock. -/
theorem alone_of_releasing {s : Traffic} {i began : Nat} {r : Receiver} {token : LockToken}
    {verdict : Verdict} (ho : s.broker.isOpen r = true)
    (hf : Settle.fault? s.broker verdict = none)
    (hi : s.calls[i]? = some ⟨began, .on (.settling ⟨r, token, verdict, .releasing⟩)⟩) :
    ∃ result u, Alone i (.settled result) s u ∧
      Answer s.broker u.broker r token verdict result := by
  cases hl : s.broker.lock? r token with
  | some l =>
    have hstep : Settle.step s.broker ⟨r, token, verdict, .releasing⟩ =
        { state := s.broker.unlock token, progress := .on ⟨r, token, verdict, .recording l⟩ } := by
      simp only [Settle.step, hl]
    obtain ⟨t, ht, htb, htc⟩ := after_of_settling hi
    rw [hstep] at htb htc
    obtain ⟨u, hu, hlocks⟩ := alone_of_recording htc
    obtain ⟨hmem, htoken, hr⟩ := mem_of_lock? hl
    refine ⟨.ok (), u, .step ht hu, ?_, fun _ => ?_, nofun⟩
    · exact iff_of_true rfl ⟨ho, hf, l, hmem, htoken, hr⟩
    · rw [hlocks, htb]
      rfl
  | none =>
    have hstep : (Settle.step s.broker ⟨r, token, verdict, .releasing⟩).progress =
        .done (.error (.lockLost token.text)) := by
      simp only [Settle.step, hl]
    obtain ⟨u, hu, hb⟩ := alone_of_done hi hstep
    refine ⟨_, u, hu, iff_of_false nofun ?_, nofun, ?_⟩
    · rintro ⟨-, -, l, hmem, htoken, hr⟩
      exact lock?_eq_none_iff.mp hl l hmem htoken hr
    · rintro e he
      cases he
      refine ⟨?_, hb.trans (Settle.step_error hstep).1⟩
      rw [Settle.refusal, if_pos ho, hf]
      rfl

/-- A settlement that is not let through is answered at once. -/
theorem step_of_refused {b : Broker} {r : Receiver} (token : LockToken) {verdict : Verdict}
    (h : b.isOpen r = true → Settle.fault? b verdict ≠ none) :
    (Settle.step b ⟨r, token, verdict, .readingFault⟩).progress =
      .done (.error (Settle.refusal b r token verdict)) := by
  cases ho : b.isOpen r with
  | false => simp only [Settle.step, Settle.refusal, ho, if_false, Bool.false_eq_true]
  | true =>
    obtain ⟨e, he⟩ := Option.ne_none_iff_exists'.mp (h ho)
    simp only [Settle.step, Settle.refusal, ho, he, if_true, Option.getD_some]

/-- Every settlement is answered, by what the bus was before it. -/
theorem answers {s : Traffic} {r : Receiver} (hr : r ∈ s.receivers) (token : LockToken)
    (verdict : Verdict) : s.Answers r token verdict := by
  have hbegin : s.after (.begin (.settle r token verdict)) =
      some (s.accept (.settle r token verdict)) := by
    simp only [after, Request.receiver?, Option.all_some, hr, decide_true, if_true]
  have hi : (s.accept (.settle r token verdict)).calls[s.calls.length]? =
      some ⟨s.now, .on (.settling ⟨r, token, verdict, .readingFault⟩)⟩ :=
    List.getElem?_concat_length
  refine ⟨_, hbegin, ?_⟩
  by_cases h : s.broker.isOpen r = true ∧ Settle.fault? s.broker verdict = none
  · obtain ⟨ho, hf⟩ := h
    obtain ⟨t, ht, htb, htc⟩ := after_of_settling hi
    have hstep : Settle.step (s.accept (.settle r token verdict)).broker
        ⟨r, token, verdict, .readingFault⟩ =
          { state := s.broker, progress := .on ⟨r, token, verdict, .releasing⟩ } := by
      simp only [Settle.step, accept, ho, hf, if_true]
    rw [hstep] at htb htc
    have hsame : t.broker = s.broker := htb
    rw [← hsame] at ho hf ⊢
    obtain ⟨result, u, hu, hanswer⟩ := alone_of_releasing ho hf htc
    exact ⟨result, u, .step ht hu, hanswer⟩
  · have hstep := step_of_refused token (not_and.mp h)
    obtain ⟨u, hu, hb⟩ := alone_of_done hi hstep
    refine ⟨_, u, hu, iff_of_false (by simp) fun hok => h ⟨hok.1, hok.2.1⟩, by simp, ?_⟩
    rintro e he
    cases he
    exact ⟨rfl, hb.trans (Settle.step_error hstep).1⟩

/-! ## A settlement among other calls -/

/-- The move from one traffic to the next ends that settlement. -/
def Ends (s t : Traffic) (i : Nat) (c : Settle) (result : Except BusError Unit) : Prop :=
  ∃ m began, s.calls[i]? = some ⟨began, .on (.settling c)⟩ ∧ s.after m = some t ∧
    t.calls[i]? = some ⟨began, .done (.settled result)⟩

theorem Ends.step {s t : Traffic} {i : Nat} {c : Settle} {result : Except BusError Unit}
    (h : s.Ends t i c result) : t.broker = (c.step s.broker).state ∧
      (c.step s.broker).progress = .done result := by
  obtain ⟨m, began, hi, hm, ht⟩ := h
  obtain ⟨-, rfl, hp⟩ := advance_of_done hi hm ht nofun
  obtain ⟨result', hp, hr⟩ := Progress.map_eq_done hp
  cases hr
  exact ⟨rfl, hp⟩

/-- That settlement has taken a step from there, and the bus was so. -/
def Past (s : Traffic) (i : Nat) (c : Settle) (P : Broker → Prop) : Prop :=
  ∃ u v : Traffic, u.Reachable ∧ u.after (.advance i) = some v ∧ v.Leads s ∧ P u.broker ∧
    ∃ began, u.calls[i]? = some ⟨began, .on (.settling c)⟩

/-- It was let through: its receiver was open, and no fault was set. -/
def Passed (s : Traffic) (i : Nat) (c : Settle) : Prop :=
  s.Past i { c with point := .readingFault } fun b =>
    b.isOpen c.receiver = true ∧ Settle.fault? b c.verdict = none

/-- It has released a lock: its receiver held one under the token. -/
def Released (s : Traffic) (i : Nat) (c : Settle) : Prop :=
  s.Past i { c with point := .releasing } fun b =>
    ∃ l ∈ b.locks, l.token = c.token ∧ l.receiver = c.receiver.id

theorem Past.later {s t : Traffic} {i : Nat} {c : Settle} {P : Broker → Prop} {m : Move}
    (h : s.Past i c P) (hm : s.after m = some t) : t.Past i c P := by
  obtain ⟨u, v, hu, huv, hvs, hp, hi⟩ := h
  exact ⟨u, v, hu, huv, hvs.step hm, hp, hi⟩

/-- A settlement on its way after a move was there before, it has just begun, or it
took the step. -/
theorem settling_of_after {s t : Traffic} {m : Move} (hm : s.after m = some t) {i began : Nat}
    {d : Settle} (h : t.calls[i]? = some ⟨began, .on (.settling d)⟩) :
    s.calls[i]? = some ⟨began, .on (.settling d)⟩ ∨ d.point = .readingFault ∨
      m = .advance i ∧ ∃ c, s.calls[i]? = some ⟨began, .on (.settling c)⟩ ∧
        (c.step s.broker).progress = .on d := by
  obtain ⟨q, -, -, rfl⟩ | ⟨j, began', c, rfl, hj, -, rfl⟩ | ⟨j, began', c, -, hj, rfl⟩ |
    ⟨ms, -, rfl⟩ | ⟨locks, -, -, rfl⟩ := after_cases hm
  · exact (settling_of_accept h).imp_right fun hd => .inl hd.2
  · obtain ⟨-, h⟩ | ⟨rfl, rfl, c, rfl, hp⟩ := settling_of_advance hj h
    · exact .inl h
    · exact .inr (.inr ⟨rfl, c, hj, hp⟩)
  · exact .inl (call_of_dropReceive hj h)
  · exact .inl h
  · exact .inl h

/-- A settlement that has come further has been let through, and one that has come
further still has released a lock. -/
theorem Reachable.earned {s : Traffic} (h : s.Reachable) {i began : Nat} {c : Settle}
    (hi : s.calls[i]? = some ⟨began, .on (.settling c)⟩) :
    (c.point ≠ .readingFault → s.Passed i c) ∧
      (c.point.hasReleased = true → s.Released i c) := by
  obtain ⟨supply, h⟩ := h
  induction h generalizing began c with
  | refl => contradiction
  | @step t u m ht hm ih =>
    obtain hi | hp | ⟨rfl, k, hk, hstep⟩ := settling_of_after hm hi
    · exact (ih hi).imp (fun h hp => (h hp).later hm) fun h hp => (h hp).later hm
    · rw [hp]
      exact ⟨fun hne => (hne rfl).elim, nofun⟩
    · cases Settle.step_on hstep with
      | passed hp ho hf =>
        refine ⟨fun _ => ⟨t, u, ⟨supply, ht⟩, hm, .refl u, ⟨ho, hf⟩, began, ?_⟩, nofun⟩
        rw [← hp]
        exact hk
      | released l hp hl htoken hr =>
        refine ⟨fun _ => ((ih hk).1 (by rw [hp]; nofun)).later hm, fun _ => ?_⟩
        refine ⟨t, u, ⟨supply, ht⟩, hm, .refl u, ⟨l, hl, htoken, hr⟩, began, ?_⟩
        rw [← hp]
        exact hk
      | recorded l hp =>
        exact ⟨fun _ => ((ih hk).1 (by rw [hp]; nofun)).later hm,
          fun _ => ((ih hk).2 (by rw [hp]; rfl)).later hm⟩

/-- A settlement that has ended well, or that will, since it has released a lock. -/
inductive EndsWell : Entry → Prop where
  | done (began : Nat) : EndsWell ⟨began, .done (.settled (.ok ()))⟩
  | on (began : Nat) (c : Settle) (h : c.point.hasReleased = true) :
    EndsWell ⟨began, .on (.settling c)⟩

theorem EndsWell.step {now began : Nat} {b : Broker} {c : Call}
    (h : EndsWell ⟨began, .on c⟩) : EndsWell ⟨began, (c.step now b).progress⟩ := by
  cases h with
  | on _ k hk =>
    have hp : (Call.step now b (.settling k)).progress =
        (k.step b).progress.map .settling .settled := rfl
    rw [hp]
    obtain hdone | ⟨d, hon, hd⟩ := Settle.step_of_hasReleased b hk
    · rw [hdone]
      exact .done began
    · rw [hon]
      exact .on began d hd

/-- What has released a lock does not end with an error. -/
theorem Leads.not_error_of_hasReleased {s t : Traffic} (h : s.Leads t) {i began began' : Nat}
    {c : Settle} {e : BusError} (hi : s.calls[i]? = some ⟨began, .on (.settling c)⟩)
    (hc : c.point.hasReleased = true) :
    t.calls[i]? ≠ some ⟨began', .done (.settled (.error e))⟩ := by
  obtain ⟨y, hy, hwell⟩ := h.entry_invariant hi (.on began c hc)
    (fun _ _ _ _ => EndsWell.step) (fun _ _ hdrop => by cases hdrop)
  rw [hy]
  intro heq
  cases heq
  cases hwell

/-- No step of a settlement that is refused in the end changes the bus. -/
theorem Leads.broker_of_refused {s t u : Traffic} (h : t.Leads u) {i began began' : Nat}
    {c : Settle} {e : BusError} (hi : s.calls[i]? = some ⟨began, .on (.settling c)⟩)
    (hm : s.after (.advance i) = some t)
    (hu : u.calls[i]? = some ⟨began', .done (.settled (.error e))⟩) : t.broker = s.broker := by
  obtain ⟨-, rfl⟩ := eq_advance hi hm
  have htc : (s.advance i began (.settling c)).calls[i]? =
      some ⟨began, (c.step s.broker).progress.map .settling .settled⟩ := getElem?_advance hi
  cases hp : (c.step s.broker).progress with
  | on d =>
    rw [hp] at htc
    cases Settle.step_on hp with
    | passed _ _ _ hs => exact hs
    | released => exact (h.not_error_of_hasReleased htc rfl hu).elim
    | recorded => exact (h.not_error_of_hasReleased htc rfl hu).elim
  | done result =>
    cases result with
    | error e' => exact (Settle.step_error hp).1
    | ok =>
      rw [hp] at htc
      rw [h.getElem?_done htc] at hu
      cases hu

end Traffic

end PeekLock.Broker
