import PeekLock.Proofs.Consumer.Duties
import PeekLock.Proofs.Consumer.Endurance

/-!
# PeekLock.Proofs.Consumer.Shifts

A worker at its work is a worker under a clock.

A step of a duty is a move of a shift, or none: the call of the worker goes
on, or what the worker waits for has come.  So what is proved for all shifts
holds of the workers of every session (`Duty.Course.shown`), and
nothing but cancellation ends those (`Duty.Course.ends`).
-/

namespace PeekLock

/-- Time passes and tokens are cancelled. -/
theorem Worker.Shift.leads_around {s : Shift} (now : Nat) (stopped caller : Bool)
    (htime : s.now ≤ now) (hstopped : s.stopped = true → stopped = true)
    (hcaller : s.callerCancelled = true → caller = true) :
    s.Leads { s with now := now, stopped := stopped, callerCancelled := caller } := by
  have hwait : s.Leads { s with now := now } := by
    refine .step (m := .wait (now - s.now)) (.refl s) ?_
    rw [after, Nat.add_sub_cancel' htime]
  have hstop : s.Leads { s with now := now, stopped := stopped } := by
    cases stopped with
    | true => exact .step (m := .stop) hwait rfl
    | false =>
      have hs : s.stopped = false := Bool.eq_false_iff.mpr fun h => Bool.false_ne_true (hstopped h)
      rwa [← hs]
  cases caller with
  | true => exact .step (m := .cancel) hstop rfl
  | false =>
    have hs : s.callerCancelled = false :=
      Bool.eq_false_iff.mpr fun h => Bool.false_ne_true (hcaller h)
    rwa [← hs]

namespace Session.Duty

variable {now : Nat} {w w' : World} {d d' : Duty} {e : Worker.Event} {s : Worker.Shift}

/-- What can be cancelled is as it was. -/
structure SameTokens (w w' : World) : Prop where
  members : w'.members = w.members
  cancelled : w'.cancelled = w.cancelled

namespace SameTokens

theorem refl (w : World) : SameTokens w w := ⟨rfl, rfl⟩

theorem write (h : SameTokens w w') (logs : List LogRecord) : SameTokens w (w'.write logs) := by
  unfold World.write
  split
  · exact h
  · exact ⟨h.members, h.cancelled⟩

/-- Records are written about a call of the bus. -/
theorem bus (w : World) (bus : Bus) (logs : List LogRecord) :
    SameTokens w ({ w with bus := bus }.write logs) := by
  have h : SameTokens w { w with bus := bus } := ⟨rfl, rfl⟩
  exact h.write logs

theorem callerCancelled (h : SameTokens w w') (consumer crew : Nat) :
    w'.callerCancelled consumer crew = w.callerCancelled consumer crew := by
  rw [World.callerCancelled, World.callerCancelled, World.isCancelled, World.isCancelled,
    World.member, World.member, h.members, h.cancelled]

theorem scopeCancelled (h : SameTokens w w') (consumer crew : Nat) :
    w'.scopeCancelled consumer crew = w.scopeCancelled consumer crew := by
  rw [World.scopeCancelled, World.scopeCancelled, h.callerCancelled, World.member, World.member,
    h.members]

end SameTokens

/-! ## Steps -/

/-- An event is what the worker of a duty waits for; a look at the tokens shows them as they
are. -/
structure Meets (w : World) (d : Duty) (e : Worker.Event) : Prop where
  awaits : d.stage.awaits e = true
  looked : ∀ caller scope, e = .looked caller scope →
    caller = w.callerCancelled d.consumer d.crew ∧ scope = w.scopeCancelled d.consumer d.crew

/-- What a step of a duty comes to. -/
inductive Stride (now : Nat) (w : World) (d : Duty) : World × Option Duty → Prop where
  /-- The call of the worker goes on. -/
  | on (w' : World) (call : DutyCall) : SameTokens w w' → d.stage ≠ .backingOff →
    Stride now w d (w', some { d with call := call })
  /-- What the worker waits for has come. -/
  | feed (w' : World) (e : Worker.Event) : SameTokens w w' → Meets w d e →
    Stride now w d (d.feed now w' e)

theorem stride_stepHandler {m : Message} {rest : List Message} (hs : d.stage = .handling m rest)
    (context : MessageContext) (run : HandlerRun) :
    Stride now w d (d.stepHandler now w context run) := by
  have hpause : d.stage ≠ .backingOff := by
    rw [hs]
    nofun
  have hmeets (result : Except String Unit) : Meets w d (.handled result) := by
    refine ⟨?_, nofun⟩
    rw [hs]
    rfl
  cases run with
  | calling =>
    unfold stepHandler callHandler
    dsimp only
    split
    · have hw : SameTokens w { w with stats := (Service.logMessage context w.stats).2.2 } :=
        ⟨rfl, rfl⟩
      exact .feed _ _ (hw.write _) (hmeets _)
    · exact .on _ _ ⟨rfl, rfl⟩ hpause
  | delayed due action => exact .on _ _ (.refl w) hpause
  | acting action =>
    cases action with
    | accept | waitForCancel | reject text => exact .feed _ _ (.refl w) (hmeets _)
    | panic text =>
      refine .feed _ _ (.refl w) ⟨?_, nofun⟩
      rw [hs]
      rfl
    | hang => exact .on _ d.call (.refl w) hpause

/-- **One step** of a duty: the call of the worker goes on, or what it waits for has come. -/
theorem stride_step (hf : d.Fits) (hl : ∀ how, d.stage ≠ .ended how) :
    Stride now w d (d.step now w) := by
  obtain ⟨consumer, crew, worker, stage, call⟩ := d
  cases stage with
  | starting => exact .feed w .started (.refl w) ⟨rfl, nofun⟩
  | deciding =>
    refine .feed w (.looked _ _) (.refl w) ⟨rfl, fun caller scope h => ?_⟩
    cases h
    exact ⟨rfl, rfl⟩
  | receiving =>
    obtain ⟨c, hc⟩ := hf.receiving rfl
    cases hc
    dsimp only [step]
    split
    · exact .feed _ (.received _) ⟨rfl, rfl⟩ ⟨rfl, nofun⟩
    · split
      · exact .on _ _ (.bus w _ _) nofun
      · exact .feed _ (.received _) (.bus w _ _) ⟨rfl, nofun⟩
  | handling m rest =>
    obtain ⟨run, hc⟩ := hf.handling rfl
    dsimp only at hc
    subst hc
    exact stride_stepHandler rfl _ run
  | settling m verdict rest =>
    obtain ⟨c, hc⟩ := hf.settling rfl
    cases hc
    dsimp only [step]
    split
    · exact .on _ _ (.bus w _ _) nofun
    · exact .feed _ (.settled _) (.bus w _ _) ⟨rfl, nofun⟩
  | backingOff => exact .feed w .rested (.refl w) ⟨rfl, nofun⟩
  | ended how => exact (hl how rfl).elim

/-- What a duty comes to when its worker is told something. -/
theorem feed_cases (now : Nat) (w : World) (d : Duty) (e : Worker.Event) :
    (∃ how, (d.worker.react d.stage e).1 = .ended how ∧
      d.feed now w e = (d.leave (w.write (d.worker.react d.stage e).2) how, none)) ∨
    ∃ d', (∀ how, (d.worker.react d.stage e).1 ≠ .ended how) ∧
      d.feed now w e = (w.write (d.worker.react d.stage e).2, some d') ∧
      d' = { d with
        stage := (d.worker.react d.stage e).1
        call := d.callFor now (w.write (d.worker.react d.stage e).2)
          (d.worker.react d.stage e).1 } := by
  unfold feed
  dsimp only
  split
  · next how hs => exact .inl ⟨how, hs, rfl⟩
  · next hs => exact .inr ⟨_, hs, rfl, rfl⟩

/-! ## Shifts -/

/-- A shift shows a worker at its work, at a time and in a world. -/
structure Shows (s : Worker.Shift) (now : Nat) (w : World) (d : Duty) : Prop where
  worker : s.worker = d.worker
  stage : s.stage = d.stage
  time : s.now = now
  caller : s.callerCancelled = w.callerCancelled d.consumer d.crew
  scope : s.scopeCancelled = w.scopeCancelled d.consumer d.crew
  pause : d.stage = .backingOff → d.call = .pause s.due

namespace Shows

/-- What a worker at its work meets with when it can go on, the shift admits. -/
theorem admits (h : Shows s now w d) (hr : d.isReady now w = true) (hm : Meets w d e) :
    s.admits e = true := by
  refine Bool.and_eq_true_iff.mpr ⟨?_, ?_⟩
  · rw [h.stage]
    exact hm.awaits
  · cases e with
    | looked caller scope =>
      obtain ⟨rfl, rfl⟩ := hm.looked _ _ rfl
      rw [← h.caller, ← h.scope]
      simp
    | rested =>
      have hs : d.stage = .backingOff := by
        have ha := hm.awaits
        cases hs : d.stage <;> rw [hs] at ha <;> first | rfl | contradiction
      rw [isReady, h.pause hs] at hr
      rw [h.time, h.scope]
      exact hr
    | _ => rfl

/-- The worker is told what it waits for: it goes on, or it has ended. -/
theorem feed (h : Shows s now w d) (hw : SameTokens w w') :
    (∃ w'' d', d.feed now w' e = (w'', some d') ∧ Shows (s.meet e) now w'' d' ∧
      ∀ how, d'.stage ≠ .ended how) ∨
    ∃ w'' how, d.feed now w' e = (d.leave w'' how, none) ∧ (s.meet e).stage = .ended how := by
  have hstage : (s.meet e).stage = (d.worker.react d.stage e).1 := by
    rw [← h.worker, ← h.stage]
    rfl
  obtain ⟨how, hs, hfeed⟩ | ⟨d', hs, hfeed, rfl⟩ := feed_cases now w' d e
  · exact .inr ⟨_, how, hfeed, hstage.trans hs⟩
  · have hw := hw.write (d.worker.react d.stage e).2
    refine .inl ⟨_, _, hfeed, ⟨h.worker, hstage, h.time, ?_, ?_, fun hpause => ?_⟩, hs⟩
    · exact h.caller.trans (hw.callerCancelled _ _).symm
    · exact h.scope.trans (hw.scopeCancelled _ _).symm
    · dsimp only at hpause
      change d.callFor _ _ _ = .pause (s.dueAt (s.meet e).stage)
      rw [hstage, hpause, Worker.Shift.dueAt, h.worker, h.time]
      rfl

end Shows

/-! ## Courses -/

/-- Time does not go back, and what is cancelled stays cancelled. -/
structure Onward (d : Duty) (now : Nat) (w : World) (now' : Nat) (w' : World) : Prop where
  time : now ≤ now'
  caller : w.callerCancelled d.consumer d.crew = true → w'.callerCancelled d.consumer d.crew = true
  scope : w.scopeCancelled d.consumer d.crew = true → w'.scopeCancelled d.consumer d.crew = true

/-- The duties that a worker comes to, under a clock and in a world that others change at will
as long as what is cancelled stays cancelled. -/
inductive Course : Nat → World → Duty → Prop where
  | start (now : Nat) (w : World) {d : Duty} : d.stage = .starting → d.call = .none →
    Course now w d
  | around {now now' : Nat} {w w' : World} {d : Duty} :
    Course now w d → Onward d now w now' w' → Course now' w' d
  | step {now : Nat} {w w' : World} {d d' : Duty} : Course now w d → d.isReady now w = true →
    d.step now w = (w', some d') → Course now w' d'

theorem Course.fits (h : Course now w d) : d.Fits := by
  induction h with
  | start now w hs hc => simp [Fits, hs, hc, Worker.call?]
  | around _ _ ih => exact ih
  | step _ _ hstep ih => exact (follows_step ih hstep).fits

/-- Others let time pass and cancel tokens, and so can it be around a shift. -/
theorem Shows.around {now' : Nat} (h : Shows s now w d) (ho : Onward d now w now' w') :
    ∃ t, s.Leads t ∧ Shows t now' w' d := by
  refine ⟨_, Worker.Shift.leads_around now' (w'.scopeCancelled d.consumer d.crew)
    (w'.callerCancelled d.consumer d.crew) ?_ ?_ ?_, ⟨h.worker, h.stage, rfl, rfl, ?_, h.pause⟩⟩
  · rw [h.time]
    exact ho.time
  · intro hs
    refine ho.scope ?_
    rw [← h.scope, Worker.Shift.scopeCancelled, hs, Bool.true_or]
  · rw [h.caller]
    exact ho.caller
  · -- the scope of a crew is cancelled when the token of its caller is
    rw [Worker.Shift.scopeCancelled, World.scopeCancelled, Bool.or_assoc, Bool.or_self]

/-- A step of a worker at its work is a move of the shift, or none. -/
theorem Shows.step {r : World × Option Duty} (h : Shows s now w d)
    (hready : d.isReady now w = true) (hstride : Stride now w d r)
    (hl : ∀ how, d.stage ≠ .ended how) :
    (∃ t d', s.Leads t ∧ r.2 = some d' ∧ Shows t now r.1 d' ∧ ∀ how, d'.stage ≠ .ended how) ∨
      ∃ t w'' how, s.Leads t ∧ r = (d.leave w'' how, none) ∧ t.stage = .ended how ∧
        t.scopeCancelled = w.scopeCancelled d.consumer d.crew := by
  cases hstride with
  | on w' call hw hpause =>
    refine .inl ⟨s, _, .refl s, rfl, ⟨h.worker, h.stage, h.time, ?_, ?_, ?_⟩, hl⟩
    · exact h.caller.trans (hw.callerCancelled _ _).symm
    · exact h.scope.trans (hw.scopeCancelled _ _).symm
    · exact fun hs => (hpause hs).elim
  | feed w' e hw hm =>
    have hmeet : s.Leads (s.meet e) := .step (m := .meet e) (.refl s) (if_pos (h.admits hready hm))
    obtain ⟨w'', d', hfeed, hs, hl'⟩ | ⟨w'', how, hfeed, hend⟩ := h.feed (e := e) hw
    · rw [hfeed]
      exact .inl ⟨s.meet e, d', hmeet, rfl, hs, hl'⟩
    · rw [hfeed]
      exact .inr ⟨s.meet e, w'', how, hmeet, rfl, hend, h.scope⟩

/-- Some shift shows a worker at its work. -/
def Shown (now : Nat) (w : World) (d : Duty) : Prop :=
  ∃ s : Worker.Shift, s.Reachable ∧ Shows s now w d ∧ ∀ how, d.stage ≠ .ended how

namespace Shown

theorem start (now : Nat) (w : World) (hs : d.stage = .starting) : Shown now w d := by
  obtain ⟨s, hl, hshow⟩ : ∃ s, Worker.Shift.Leads { worker := d.worker, now := now } s ∧
      Shows s now w d := by
    refine ⟨_, Worker.Shift.leads_around now (w.scopeCancelled d.consumer d.crew)
      (w.callerCancelled d.consumer d.crew) (Nat.le_refl now)
      (fun h => (Bool.false_ne_true h).elim) (fun h => (Bool.false_ne_true h).elim),
      rfl, hs.symm, rfl, rfl, ?_, fun h => ?_⟩
    · rw [Worker.Shift.scopeCancelled, World.scopeCancelled, Bool.or_assoc, Bool.or_self]
    · rw [hs] at h
      contradiction
  refine ⟨s, ⟨_, _, hl⟩, hshow, fun how h => ?_⟩
  rw [hs] at h
  contradiction

theorem around {now' : Nat} (h : Shown now w d) (ho : Onward d now w now' w') :
    Shown now' w' d := by
  obtain ⟨s, hr, hs, hl⟩ := h
  obtain ⟨t, hst, ht⟩ := hs.around ho
  exact ⟨t, hr.leads hst, ht, hl⟩

theorem step (h : Shown now w d) (hf : d.Fits) (hready : d.isReady now w = true)
    (hstep : d.step now w = (w', some d')) : Shown now w' d' := by
  obtain ⟨s, hr, hs, hl⟩ := h
  obtain ⟨t, d'', hst, hd, ht⟩ | ⟨t, w'', how, hst, hend, -⟩ :=
    hs.step hready (stride_step hf hl) hl
  · rw [hstep] at hd ht
    cases hd
    exact ⟨t, hr.leads hst, ht⟩
  · rw [hstep] at hend
    cases hend

end Shown

/-- **Every worker at its work has a shift**, which shows it. -/
theorem Course.shown (h : Course now w d) : Shown now w d := by
  induction h with
  | start now w hs _ => exact .start now w hs
  | around _ ho ih => exact ih.around ho
  | step hd hready hstep ih => exact ih.step hd.fits hready hstep

/-- **Nothing but cancellation ends a worker of a session**: its scope is cancelled when it goes,
or its handler panics. -/
theorem Course.ends (h : Course now w d) (hready : d.isReady now w = true)
    (hstep : d.step now w = (w', none)) :
    ∃ w'' how, w' = d.leave w'' how ∧ (how = .returned ∧
      w.scopeCancelled d.consumer d.crew = true ∨ ∃ text, how = .panicked text) := by
  obtain ⟨s, hr, hs, hl⟩ := h.shown
  obtain ⟨t, d', hst, hd', -⟩ | ⟨t, w'', how, hst, hend, hstage, hscope⟩ :=
    hs.step hready (stride_step h.fits hl) hl
  · rw [hstep] at hd'
    cases hd'
  · rw [hstep] at hend
    refine ⟨w'', how, (Prod.mk.inj hend).1, ?_⟩
    rw [← hscope]
    refine ((hr.leads hst).cancelled_or_panicked how hstage).imp_right ?_
    rintro ⟨text, hp, -⟩
    exact ⟨text, hp⟩

end Session.Duty

end PeekLock
