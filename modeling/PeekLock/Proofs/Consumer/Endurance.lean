import Mathlib.Data.List.Chain
import Mathlib.Data.List.Pairwise
import PeekLock.Consumer.Shift

/-!
# PeekLock.Proofs.Consumer.Endurance

Nothing but cancellation ends a worker.

`Enduring` says what holds of every shift that can come about, whatever the
receiver, the handler and the settlements do: how a worker ends, how long
it stays away from a receiver that fails, that it pauses for no other
reason, and that it begins no receive after its scope was cancelled.
-/

namespace PeekLock.Worker

/-! ## What an event leads to -/

/-- A stage, an event that is awaited there, and the stage that it leads to. -/
inductive Passage : Stage → Event → Stage → Prop where
  | starts : Passage .starting .started .deciding
  | obeys (caller scope : Bool) (h : (caller || scope) = true) :
    Passage .deciding (.looked caller scope) (.ended .returned)
  | receives : Passage .deciding (.looked false false) .receiving
  | delivers (m : Message) (rest : List Message) :
    Passage .receiving (.received (.ok (m :: rest))) (.handling m rest)
  | deliversNone : Passage .receiving (.received (.ok [])) .deciding
  | findsNothing (e : BusError) (h : e.isEmptyPoll = true) :
    Passage .receiving (.received (.error e)) .deciding
  | fails (e : BusError) (h : e.isEmptyPoll = false) :
    Passage .receiving (.received (.error e)) .backingOff
  | handles (m : Message) (rest : List Message) (result : Except String Unit) :
    Passage (.handling m rest) (.handled result) (.settling m (verdictOn result) rest)
  | panics (m : Message) (rest : List Message) (text : String) :
    Passage (.handling m rest) (.panicked text) (.ended (.panicked text))
  | turns (m : Message) (verdict : Verdict) (next : Message) (rest : List Message)
    (result : Except BusError Unit) :
    Passage (.settling m verdict (next :: rest)) (.settled result) (.handling next rest)
  | finishes (m : Message) (verdict : Verdict) (result : Except BusError Unit) :
    Passage (.settling m verdict []) (.settled result) .deciding
  | rests : Passage .backingOff .rested .deciding

/-- An awaited event leads along one of these. -/
theorem passage_of_awaits (w : Worker) {stage : Stage} {e : Event} (h : stage.awaits e = true) :
    Passage stage e (w.react stage e).1 := by
  cases stage with
  | starting =>
    cases e with
    | started => exact .starts
    | _ => contradiction
  | deciding =>
    cases e with
    | looked caller scope =>
      cases caller with
      | true => exact .obeys true scope rfl
      | false =>
        cases scope with
        | true => exact .obeys false true rfl
        | false => exact .receives
    | _ => contradiction
  | receiving =>
    cases e with
    | received result =>
      cases result with
      | ok messages =>
        cases messages with
        | nil => exact .deliversNone
        | cons m rest => exact .delivers m rest
      | error err =>
        cases he : err.isEmptyPoll with
        | true =>
          simp only [react, he, if_true]
          exact .findsNothing err he
        | false =>
          simp only [react, he, Bool.false_eq_true, if_false]
          exact .fails err he
    | _ => contradiction
  | handling m rest =>
    cases e with
    | handled result => exact .handles m rest result
    | panicked text => exact .panics m rest text
    | _ => contradiction
  | settling m verdict rest =>
    cases e with
    | settled result =>
      cases rest with
      | nil => exact .finishes m verdict result
      | cons next rest => exact .turns m verdict next rest result
    | _ => contradiction
  | backingOff =>
    cases e with
    | rested => exact .rests
    | _ => contradiction
  | ended how => cases e <;> contradiction

namespace Passage

variable {stage stage' : Stage} {e : Event}

/-- A worker ends when it sees that a token is cancelled, or when its handler panics. -/
theorem cancelled_or_panicked {how : Exit} (h : Passage stage e (.ended how)) :
    (∃ caller scope, e = .looked caller scope ∧ (caller || scope) = true ∧ how = .returned) ∨
      ∃ text, e = .panicked text ∧ how = .panicked text := by
  cases h with
  | obeys caller scope hc => exact .inl ⟨caller, scope, rfl, hc, rfl⟩
  | panics m rest text => exact .inr ⟨text, rfl, rfl⟩

/-- A worker pauses when a receive has failed, and only then. -/
theorem backingOff_iff (h : Passage stage e stage') :
    stage' = .backingOff ↔ ∃ err, e = .received (.error err) ∧ err.isEmptyPoll = false := by
  constructor
  · rintro rfl
    cases h with
    | fails err he => exact ⟨err, rfl, he⟩
  · rintro ⟨err, rfl, he⟩
    cases h with
    | findsNothing _ he' =>
      rw [he] at he'
      contradiction
    | fails => rfl

/-- A worker begins a receive when it has seen that no token is cancelled. -/
theorem looked_of_receiving (h : Passage stage e .receiving) :
    stage = .deciding ∧ e = .looked false false := by
  cases h with
  | receives => exact ⟨rfl, rfl⟩

/-- A receive ends where one was begun. -/
theorem stage_of_received {result : Except BusError (List Message)}
    (h : Passage stage (.received result) stage') : stage = .receiving := by
  cases h <;> rfl

end Passage

/-- Whether a receive has failed, and not just found nothing. -/
def Note.isFailure (n : Note) : Bool :=
  match n.event with
  | .received (.error e) => !e.isEmptyPoll
  | _ => false

/-- Whether a receive has ended with messages or without any, but has not failed. -/
def Note.isPoll (n : Note) : Bool :=
  match n.event with
  | .received (.ok _) => true
  | .received (.error e) => e.isEmptyPoll
  | _ => false

/-- A receive has found nothing if its time was over or it was cancelled; any other error is a
failure. -/
theorem isEmptyPoll_iff (e : BusError) :
    e.isEmptyPoll = true ↔ ∃ text, e = .operationTimeout text ∨ e = .cancelled text := by
  cases e <;> simp [BusError.isEmptyPoll]

theorem Note.isFailure_iff (n : Note) :
    n.isFailure = true ↔ ∃ e, n.event = .received (.error e) ∧ e.isEmptyPoll = false := by
  obtain ⟨time, event, stage⟩ := n
  cases event with
  | received result => cases result <;> simp [isFailure]
  | _ => simp [isFailure]

/-- A note tells of a failure if a receive has ended with an error other than those two. -/
theorem Note.isFailure_iff_ne (n : Note) : n.isFailure = true ↔ ∃ e,
    n.event = .received (.error e) ∧ ∀ text, e ≠ .operationTimeout text ∧ e ≠ .cancelled text := by
  simp only [isFailure_iff, ← Bool.not_eq_true, isEmptyPoll_iff, not_exists, not_or, ne_eq]

theorem Note.isPoll_iff (n : Note) : n.isPoll = true ↔
    (∃ messages, n.event = .received (.ok messages)) ∨
      ∃ text, n.event = .received (.error (.operationTimeout text)) ∨
        n.event = .received (.error (.cancelled text)) := by
  obtain ⟨time, event, stage⟩ := n
  cases event with
  | received result => cases result <;> simp [isPoll, isEmptyPoll_iff]
  | _ => simp [isPoll]

namespace Shift

variable {s t : Shift}

/-! ## Runs -/

/-- What a shift leads to, it leads to step by step. -/
theorem Leads.trans {s t u : Shift} (h : Leads s t) (k : Leads t u) : Leads s u := by
  induction k with
  | refl => exact h
  | step _ hm ih => exact ih.step hm

theorem Reachable.leads (h : s.Reachable) (k : s.Leads t) : t.Reachable := by
  obtain ⟨w, began, h⟩ := h
  exact ⟨w, began, h.trans k⟩

/-- What some moves lead to is reached. -/
theorem leads_of_run {moves : List Move} (h : s.run moves = some t) : Leads s t :=
  keeps_of_foldlM h (.refl s) fun _ _ _ hl hm => hl.step hm

/-- Something happens around the worker, and nothing to it. -/
structure Around (s t : Shift) : Prop where
  worker : t.worker = s.worker
  stage : t.stage = s.stage
  due : t.due = s.due
  journal : t.journal = s.journal
  now : s.now ≤ t.now
  scope : s.scopeCancelled = true → t.scopeCancelled = true

/-- What a move can be. -/
theorem after_cases {m : Move} (h : s.after m = some t) :
    Around s t ∨ ∃ e, s.admits e = true ∧ t = s.meet e := by
  cases m with
  | wait ms =>
    cases h
    exact .inl ⟨rfl, rfl, rfl, rfl, Nat.le_add_right _ _, id⟩
  | stop =>
    cases h
    exact .inl ⟨rfl, rfl, rfl, rfl, Nat.le_refl _, fun _ => rfl⟩
  | cancel =>
    cases h
    exact .inl ⟨rfl, rfl, rfl, rfl, Nat.le_refl _, fun _ => Bool.or_true _⟩
  | meet e =>
    simp only [after] at h
    split at h
    · next ha => exact .inr ⟨e, ha, (Option.some.inj h).symm⟩
    · contradiction

/-- **The rule of invariants**, from a given shift on. -/
theorem Leads.invariant {P : Shift → Prop} (h : Leads s t) (start : P s)
    (around : ∀ t u, Around t u → P t → P u)
    (meet : ∀ t e, t.admits e = true → P t → P (t.meet e)) : P t := by
  induction h with
  | refl => exact start
  | step _ hm ih =>
    obtain ha | ⟨e, he, rfl⟩ := after_cases hm
    · exact around _ _ ha ih
    · exact meet _ e he ih

theorem passage_of_admits {e : Event} (h : s.admits e = true) :
    Passage s.stage e (s.meet e).stage :=
  passage_of_awaits _ (Bool.and_eq_true_iff.mp h).1

/-- A look at the tokens shows them as they are. -/
theorem looked_of_admits {caller scope : Bool} (h : s.admits (.looked caller scope) = true) :
    caller = s.callerCancelled ∧ scope = s.scopeCancelled := by
  obtain ⟨-, hl⟩ := Bool.and_eq_true_iff.mp h
  obtain ⟨hcaller, hscope⟩ := Bool.and_eq_true_iff.mp hl
  exact ⟨beq_iff_eq.mp hcaller, beq_iff_eq.mp hscope⟩

/-- A worker that begins a receive comes from a look at its tokens, and is not cancelled. -/
theorem deciding_of_receiving {e : Event} (h : s.admits e = true)
    (hs : (s.meet e).stage = .receiving) : s.stage = .deciding ∧ s.scopeCancelled = false := by
  have hp := passage_of_admits h
  rw [hs] at hp
  obtain ⟨hd, rfl⟩ := hp.looked_of_receiving
  exact ⟨hd, (looked_of_admits h).2.symm⟩

/-- A pause is over when its time has come, or the scope is cancelled. -/
theorem rested_of_admits {e : Event} (h : s.admits e = true) (hs : s.stage = .backingOff) :
    s.due ≤ s.now ∨ s.scopeCancelled = true := by
  have hp := passage_of_admits h
  rw [hs] at hp
  generalize hstage : (s.meet e).stage = stage at hp
  cases hp
  obtain ⟨-, hr⟩ := Bool.and_eq_true_iff.mp h
  rwa [Bool.or_eq_true, decide_eq_true_eq] at hr

/-- A note of what the worker meets with now is one of a failure if the worker pauses then. -/
theorem isFailure_meet {e : Event} (h : s.admits e = true) :
    Note.isFailure ⟨s.now, e, (s.meet e).stage⟩ = true ↔ (s.meet e).stage = .backingOff :=
  (Note.isFailure_iff _).trans (passage_of_admits h).backingOff_iff.symm

/-! ## Ends -/

/-- **What ends a worker**: the cancellation of its scope, or a panic of its handler. -/
theorem Reachable.cancelled_or_panicked (h : s.Reachable) :
    ∀ how, s.stage = .ended how → how = .returned ∧ s.scopeCancelled = true ∨
      ∃ text, how = .panicked text ∧ ∃ n ∈ s.journal, n.event = .panicked text := by
  obtain ⟨w, began, h⟩ := h
  refine h.invariant (P := fun s => ∀ how, s.stage = .ended how →
    how = .returned ∧ s.scopeCancelled = true ∨
      ∃ text, how = .panicked text ∧ ∃ n ∈ s.journal, n.event = .panicked text) nofun ?_ ?_
  · intro s t ha ih how he
    rw [ha.stage] at he
    rw [ha.journal]
    exact (ih how he).imp_left fun ⟨hr, hc⟩ => ⟨hr, ha.scope hc⟩
  · intro s e ha _ how he
    obtain ⟨caller, scope, rfl, hc, hr⟩ | ⟨text, rfl, hp⟩ :=
      (he ▸ passage_of_admits ha).cancelled_or_panicked
    · obtain ⟨hcaller, hscope⟩ := looked_of_admits ha
      refine .inl ⟨hr, ?_⟩
      change s.scopeCancelled = true
      obtain hc | hc := (Bool.or_eq_true _ _).mp hc
      · rw [scopeCancelled, ← hcaller, hc, Bool.or_true]
      · rw [← hscope, hc]
    · exact .inr ⟨text, hp, _, List.mem_append_right _ (List.mem_singleton_self _), rfl⟩

/-- A worker that has not ended can go on, if only its calls are answered. -/
theorem exists_admits (h : ∀ how, s.stage ≠ .ended how) :
    ∃ ms e, { s with now := s.now + ms }.admits e = true := by
  cases hs : s.stage with
  | starting => exact ⟨0, .started, by simp [admits, Stage.awaits]⟩
  | deciding =>
    exact ⟨0, .looked s.callerCancelled s.scopeCancelled,
      by simp [admits, Stage.awaits, scopeCancelled]⟩
  | receiving => exact ⟨0, .received (.ok []), by simp [admits, Stage.awaits]⟩
  | handling m rest => exact ⟨0, .handled (.ok ()), by simp [admits, Stage.awaits]⟩
  | settling m verdict rest => exact ⟨0, .settled (.ok ()), by simp [admits, Stage.awaits]⟩
  | backingOff => exact ⟨s.due, .rested, by simp [admits, Stage.awaits]⟩
  | ended how => exact (h how hs).elim

/-! ## The journal -/

/-- **The journal is a run of the worker**: each note leads on from the stage that the one before
it tells of, and the last one tells of the stage that the worker is at. -/
theorem Reachable.chronicled (h : s.Reachable) :
    s.journal.IsChain (fun m n => Passage m.stage n.event n.stage) ∧
      (∀ n ∈ s.journal, ∃ stage, Passage stage n.event n.stage) ∧
      ∀ n ∈ s.journal.getLast?, n.stage = s.stage := by
  obtain ⟨w, began, h⟩ := h
  refine h.invariant (P := fun s =>
    s.journal.IsChain (fun m n => Passage m.stage n.event n.stage) ∧
    (∀ n ∈ s.journal, ∃ stage, Passage stage n.event n.stage) ∧
      ∀ n ∈ s.journal.getLast?, n.stage = s.stage)
    ⟨.nil, fun _ hn => (List.not_mem_nil hn).elim,
      fun _ hn => (Option.not_mem_none _ hn).elim⟩ ?_ ?_
  · intro s t ha ih
    rw [ha.journal, ha.stage]
    exact ih
  · rintro s e ha ⟨hchain, hnotes, hlast⟩
    have hnew := passage_of_admits ha
    refine ⟨List.isChain_append.mpr ⟨hchain, .singleton _, ?_⟩, fun n hn => ?_, fun n hn => ?_⟩
    · rintro m hm n hn
      obtain rfl := Option.some.inj hn
      rw [hlast m hm]
      exact hnew
    · obtain hn | hn := List.mem_append.mp hn
      · exact hnotes n hn
      · rw [List.mem_singleton.mp hn]
        exact ⟨_, hnew⟩
    · rw [meet, List.getLast?_concat] at hn
      rw [← Option.some.inj hn]
      rfl

/-- **No other pauses**: a worker pauses when a receive has failed, and only then. -/
theorem Reachable.backingOff_iff_isFailure (h : s.Reachable) {n : Note} (hn : n ∈ s.journal) :
    n.stage = .backingOff ↔ n.isFailure = true := by
  obtain ⟨stage, hp⟩ := h.chronicled.2.1 n hn
  exact hp.backingOff_iff.trans n.isFailure_iff.symm

/-- After a receive that has not failed there is no pause before the next one. -/
theorem Reachable.no_pause (h : s.Reachable) {before between later : List Note} {m n : Note}
    (hj : s.journal = before ++ m :: (between ++ n :: later)) (hm : m.isPoll = true)
    (hb : ∀ x ∈ between, x.beginsReceive = false) : n.stage ≠ .backingOff := by
  intro hpause
  obtain ⟨hchain, hnotes, -⟩ := h.chronicled
  have hsplit : s.journal = (before ++ m :: between) ++ n :: later := by
    rw [hj, List.append_assoc, List.cons_append]
  rw [hsplit] at hchain hnotes
  -- the note before the pause is of a receive that was begun
  obtain ⟨x, hx⟩ : ∃ x, (m :: between).getLast? = some x :=
    ⟨_, List.getLast?_eq_some_getLast (List.cons_ne_nil _ _)⟩
  have hp : Passage x.stage n.event n.stage := by
    refine (List.isChain_append.mp hchain).2.2 x ?_ n rfl
    rw [List.getLast?_append, hx]
    rfl
  obtain ⟨err, he, -⟩ := hp.backingOff_iff.mp hpause
  rw [he] at hp
  have hbegun := hp.stage_of_received
  obtain rfl | hx := List.mem_cons.mp (List.mem_of_getLast? hx)
  · -- but what the first one tells of is the end of a receive
    obtain ⟨stage, hp'⟩ := hnotes x
      (List.mem_append_left _ (List.mem_append_right _ List.mem_cons_self))
    rw [hbegun] at hp'
    rw [Note.isPoll, hp'.looked_of_receiving.2] at hm
    contradiction
  · have hx := hb x hx
    rw [Note.beginsReceive, decide_eq_false_iff_not] at hx
    exact hx hbegun

/-! ## Pauses -/

/-- How long the worker stays away from a receiver that has failed, in milliseconds. -/
def patience (s : Shift) : Nat := s.worker.settings.errorBackoff.ticks

/-- Since a failure at that time the worker has rested long enough, or it is about to, or it will
not receive any more. -/
def Rests (s : Shift) (failed : Nat) : Prop :=
  s.stage = .backingOff ∧ failed + s.patience ≤ s.due ∨ failed + s.patience ≤ s.now ∨
    s.scopeCancelled = true

theorem Rests.around {failed : Nat} (h : s.Rests failed) (ha : Around s t) : t.Rests failed := by
  rw [Rests, patience, ha.stage, ha.due, ha.worker]
  obtain h | h | h := h
  · exact .inl h
  · exact .inr (.inl (Nat.le_trans h ha.now))
  · exact .inr (.inr (ha.scope h))

theorem Rests.meet {failed : Nat} (h : s.Rests failed) {e : Event} (ha : s.admits e = true) :
    (s.meet e).Rests failed := by
  obtain ⟨hs, hd⟩ | h | h := h
  · obtain hr | hr := rested_of_admits ha hs
    · exact .inr (.inl (Nat.le_trans hd hr))
    · exact .inr (.inr hr)
  · exact .inr (.inl h)
  · exact .inr (.inr h)

theorem Reachable.rests (h : s.Reachable) :
    ∀ m ∈ s.journal, m.isFailure = true → s.Rests m.time := by
  obtain ⟨w, began, h⟩ := h
  refine h.invariant (P := fun s => ∀ m ∈ s.journal, m.isFailure = true → s.Rests m.time)
    (fun _ hm => (List.not_mem_nil hm).elim) ?_ ?_
  · intro s t ha ih m hm hf
    rw [ha.journal] at hm
    exact (ih m hm hf).around ha
  · intro s e ha ih m hm hf
    obtain hm | hm := List.mem_append.mp hm
    · exact (ih m hm hf).meet ha
    · obtain rfl := List.mem_singleton.mp hm
      have hs := (isFailure_meet ha).mp hf
      refine .inl ⟨hs, Nat.le_of_eq ?_⟩
      change s.now + s.patience = s.dueAt (s.meet e).stage
      rw [hs]
      rfl

/-- **Failures are waited out**: between a receive that has failed and any later one there is the
whole pause. -/
theorem Reachable.paused (h : s.Reachable) : s.journal.Pairwise fun m n =>
    m.isFailure = true → n.beginsReceive = true → m.time + s.patience ≤ n.time := by
  obtain ⟨w, began, h⟩ := h
  have hall : s.Reachable ∧ s.journal.Pairwise fun m n =>
      m.isFailure = true → n.beginsReceive = true → m.time + s.patience ≤ n.time := by
    induction h with
    | refl => exact ⟨⟨w, began, .refl _⟩, .nil⟩
    | @step t u m hl hm ih =>
      obtain ⟨hr, ih⟩ := ih
      refine ⟨hr.leads (.step (.refl t) hm), ?_⟩
      obtain ha | ⟨e, he, rfl⟩ := after_cases hm
      · rw [ha.journal, patience, ha.worker]
        exact ih
      · refine List.pairwise_append.mpr ⟨ih, List.pairwise_singleton _ _, fun m hm n hn hf hb => ?_⟩
        obtain rfl := List.mem_singleton.mp hn
        obtain ⟨hs, hc⟩ := deciding_of_receiving he (of_decide_eq_true hb)
        obtain ⟨hp, -⟩ | hp | hp := hr.rests m hm hf
        · rw [hs] at hp
          contradiction
        · exact hp
        · rw [hc] at hp
          contradiction
  exact hall.2

/-! ## Cancellation -/

/-- **Cancelled for good**: once its scope is cancelled, a worker begins no receive any more. -/
theorem Leads.receives_eq (h : s.Leads t) (hc : s.scopeCancelled = true) :
    t.receives = s.receives := by
  have hall : t.scopeCancelled = true ∧ t.receives = s.receives := by
    refine h.invariant (P := fun t => t.scopeCancelled = true ∧ t.receives = s.receives)
      ⟨hc, rfl⟩ ?_ ?_
    · rintro t u ha ⟨hc, hr⟩
      refine ⟨ha.scope hc, ?_⟩
      rw [receives, ha.journal]
      exact hr
    · rintro t e ha ⟨hc, hr⟩
      refine ⟨hc, ?_⟩
      have hnone : List.filter Note.beginsReceive [⟨t.now, e, (t.meet e).stage⟩] = [] := by
        refine List.filter_eq_nil_iff.mpr fun n hn hb => ?_
        rw [List.mem_singleton.mp hn] at hb
        rw [(deciding_of_receiving ha (of_decide_eq_true hb)).2] at hc
        contradiction
      have hjournal : (t.meet e).receives = t.receives ++
          List.filter Note.beginsReceive [⟨t.now, e, (t.meet e).stage⟩] := List.filter_append _ _
      rw [hjournal, hnone, List.append_nil, hr]
  exact hall.2

/-! ## Endurance -/

/-- What a worker lives through. -/
structure Enduring (s : Shift) : Prop where
  /-- A worker ends when its scope is cancelled, or when its handler panics. -/
  ends : ∀ how, s.stage = .ended how → how = .returned ∧ s.scopeCancelled = true ∨
    ∃ text, how = .panicked text ∧ ∃ n ∈ s.journal, n.event = .panicked text
  /-- As long as it has not ended, it goes on when its calls are answered. -/
  goesOn : (∀ how, s.stage ≠ .ended how) → ∃ ms e, { s with now := s.now + ms }.admits e = true
  /-- Between a receive that has failed and any later one there is the whole pause. -/
  paused : s.journal.Pairwise fun m n => m.isFailure = true → n.beginsReceive = true →
    m.time * Duration.perMilli + s.worker.settings.errorBackoff.nanos ≤ n.time * Duration.perMilli
  /-- It pauses when a receive has failed, and only then. -/
  pauses : ∀ n ∈ s.journal, n.stage = .backingOff ↔ n.isFailure = true
  /-- After a receive that has not failed there is no pause before the next one. -/
  awake : ∀ (before between later : List Note) (m n : Note),
    s.journal = before ++ m :: (between ++ n :: later) → m.isPoll = true →
      (∀ x ∈ between, x.beginsReceive = false) → n.stage ≠ .backingOff
  /-- A failure is an error other than a timeout and a cancellation, -/
  failures : ∀ n ∈ s.journal, n.isFailure = true ↔ ∃ e, n.event = .received (.error e) ∧
    ∀ text, e ≠ .operationTimeout text ∧ e ≠ .cancelled text
  /-- and any other end of a receive is none. -/
  polls : ∀ n ∈ s.journal, n.isPoll = true ↔ (∃ messages, n.event = .received (.ok messages)) ∨
    ∃ text, n.event = .received (.error (.operationTimeout text)) ∨
      n.event = .received (.error (.cancelled text))
  /-- Once its scope is cancelled, it begins no receive any more. -/
  obeys : s.scopeCancelled = true → ∀ t, s.Leads t → t.receives = s.receives

/-- **Nothing but cancellation ends a worker**, whatever it meets with. -/
theorem Reachable.enduring (h : s.Reachable) : s.Enduring where
  ends := h.cancelled_or_panicked
  goesOn := exists_admits
  paused := h.paused.imp fun hp hf hb => by
    have hp := hp hf hb
    have hd := s.worker.settings.errorBackoff.nanos_le_ticks
    rw [patience] at hp
    calc _ ≤ _ := Nat.add_le_add_left hd _
      _ = _ := (Nat.add_mul _ _ _).symm
      _ ≤ _ := Nat.mul_le_mul_right _ hp
  pauses _ hn := h.backingOff_iff_isFailure hn
  awake _ _ _ _ _ hj hm hb := h.no_pause hj hm hb
  failures n _ := n.isFailure_iff_ne
  polls n _ := n.isPoll_iff
  obeys hc _ hl := hl.receives_eq hc

/-- A worker that pauses for a second when a receive has failed. -/
def patient : Worker := ⟨0, { (default : ConsumerSettings) with errorBackoff := .ofMillis 1000 }⟩

/-- A receive fails after five milliseconds, and the pause is waited out.  The next three find
nothing: one returns no messages, the time of one is over, and one is cancelled.  The last one
fails, and the stop token is cancelled in the middle of the pause. -/
def twoFailures : List Move := [
  .meet .started, .meet (.looked false false), .wait 5, .meet (.received (.error .receiverClosed)),
  .wait 1000, .meet .rested, .meet (.looked false false), .meet (.received (.ok [])),
  .meet (.looked false false), .meet (.received (.error (.operationTimeout "5s"))),
  .meet (.looked false false), .meet (.received (.error (.cancelled "by the bus"))),
  .meet (.looked false false), .meet (.received (.error .receiverClosed)),
  .wait 500, .stop, .meet .rested, .meet (.looked false true)]

theorem enduring_twoFailures : ∃ s, ({ worker := patient } : Shift).run twoFailures = some s ∧
    s.stage = .ended .returned ∧ s.receives.map (·.time) = [0, 1005, 1005, 1005, 1005] ∧
    s.now = 1505 ∧ s.Enduring := by
  have hrun : (({ worker := patient } : Shift).run twoFailures).any fun s =>
      s.stage = .ended .returned ∧ s.receives.map (·.time) = [0, 1005, 1005, 1005, 1005] ∧
        s.now = 1505 := by
    decide
  obtain ⟨s, hs, hp⟩ := (Option.any_eq_true _ _).mp hrun
  obtain ⟨hended, htimes, hnow⟩ := of_decide_eq_true hp
  exact ⟨s, hs, hended, htimes, hnow, Reachable.enduring ⟨patient, 0, leads_of_run hs⟩⟩

end Shift

end PeekLock.Worker
