import PeekLock.Proofs.Consumer.Batches
import PeekLock.Session.Duty

/-!
# PeekLock.Proofs.Consumer.Duties

A worker at its work is a worker in some surroundings.

A duty carries out the calls of its worker step by step, in a world that
others change in between.  Whatever they do, the stages of the worker are
those of a worker whose calls are answered (`Duty.Runs.exists_surroundings`),
so what is proved for all surroundings holds of every session.
-/

namespace PeekLock

namespace Worker.Surroundings

/-- Surroundings in which nothing happens. -/
def calm : Surroundings where
  callerCancelled _ := false
  scopeCancelled _ := false
  receive _ := .ok []
  handle _ _ := .ok ()
  settle _ _ _ := .ok ()

/-- Surroundings that change at a moment. -/
def splice (σ τ : Surroundings) (n : Nat) : Surroundings where
  callerCancelled i := if i < n then σ.callerCancelled i else τ.callerCancelled i
  scopeCancelled i := if i < n then σ.scopeCancelled i else τ.scopeCancelled i
  receive i := if i < n then σ.receive i else τ.receive i
  handle i := if i < n then σ.handle i else τ.handle i
  settle i := if i < n then σ.settle i else τ.settle i

theorem event_splice_of_lt {σ τ : Surroundings} {w : Worker} {n i : Nat} (h : i < n)
    (stage : Stage) : (σ.splice τ n).event w i stage = σ.event w i stage := by
  cases stage <;> simp [event, splice, h]

theorem event_splice_self (σ τ : Surroundings) (w : Worker) (n : Nat) (stage : Stage) :
    (σ.splice τ n).event w n stage = τ.event w n stage := by
  cases stage <;> simp [event, splice]

/-- Up to the moment of the change all is as before. -/
theorem stage_splice {σ τ : Surroundings} {w : Worker} {n i : Nat} (h : i ≤ n) :
    (σ.splice τ n).stage w i = σ.stage w i := by
  induction i with
  | zero => rfl
  | succ i ih => rw [stage, stage, event_splice_of_lt h, ih (Nat.le_of_lt h)]

theorem stage_splice_succ (σ τ : Surroundings) (w : Worker) (n : Nat) :
    (σ.splice τ n).stage w (n + 1) = (w.react (σ.stage w n) (τ.event w n (σ.stage w n))).1 := by
  rw [stage, event_splice_self, stage_splice (Nat.le_refl n)]

theorem calls_splice {σ τ : Surroundings} {w : Worker} {n m k : Nat} (h : m + k ≤ n + 1) :
    (σ.splice τ n).calls w m k = σ.calls w m k := by
  induction k generalizing m with
  | zero => rfl
  | succ k ih => rw [calls, calls, stage_splice (by omega), ih (by omega)]

end Worker.Surroundings

namespace Session.Duty

/-- The call of a duty is the one that its worker makes at its stage. -/
def Fits (d : Duty) : Prop :=
  match d.worker.call? d.stage, d.call with
  | some (.receive _ _), .receive _ => True
  | some (.handle context), .handle context' _ => context' = context
  | some (.settle _ _), .settle _ => True
  | none, .none => True
  | none, .pause _ => d.stage = .backingOff
  | _, _ => False

theorem Fits.receiving {d : Duty} (h : d.Fits) (hs : d.stage = .receiving) :
    ∃ c, d.call = .receive c := by
  unfold Fits at h
  rw [hs] at h
  cases hc : d.call with
  | receive c => exact ⟨c, rfl⟩
  | _ => rw [hc] at h; exact h.elim

theorem Fits.handling {d : Duty} {m : Message} {rest : List Message} (h : d.Fits)
    (hs : d.stage = .handling m rest) : ∃ r, d.call = .handle (d.worker.contextOf m) r := by
  unfold Fits at h
  rw [hs] at h
  cases hc : d.call with
  | handle context r =>
    rw [hc] at h
    exact ⟨r, by rw [← show context = d.worker.contextOf m from h]⟩
  | _ => rw [hc] at h; exact h.elim

theorem Fits.settling {d : Duty} {m : Message} {verdict : Verdict} {rest : List Message}
    (h : d.Fits) (hs : d.stage = .settling m verdict rest) : ∃ c, d.call = .settle c := by
  unfold Fits at h
  rw [hs] at h
  cases hc : d.call with
  | settle c => exact ⟨c, rfl⟩
  | _ => rw [hc] at h; exact h.elim

/-- From one duty to another the worker stays at its stage, or its call is answered. -/
structure Follows (d d' : Duty) : Prop where
  worker : d'.worker = d.worker
  fits : d'.Fits
  stage : d'.stage = d.stage ∨ ∃ τ : Worker.Surroundings, ∀ n,
    d'.stage = (d.worker.react d.stage (τ.event d.worker n d.stage)).1

theorem fits_callFor (now : Nat) (w : World) (d : Duty) (stage : Worker.Stage) :
    Fits { d with stage := stage, call := d.callFor now w stage } := by
  cases stage <;> simp [Fits, callFor, Worker.call?, begin]

/-- An answered call brings the worker to its next stage. -/
theorem follows_feed {now : Nat} {w w' : World} {d d' : Duty} {e : Worker.Event}
    {τ : Worker.Surroundings} (he : ∀ n, τ.event d.worker n d.stage = e)
    (h : d.feed now w e = (w', some d')) : d.Follows d' := by
  unfold feed at h
  dsimp only at h
  split at h
  · cases h
  · cases h
    exact ⟨rfl, fits_callFor now _ d _, .inr ⟨τ, fun n => by rw [he n]⟩⟩

theorem Follows.refl {d : Duty} (h : d.Fits) : d.Follows d := ⟨rfl, h, .inl rfl⟩

/-- Surroundings in which the handler returns that result. -/
def returning (result : Except String Unit) : Worker.Surroundings :=
  { Worker.Surroundings.calm with handle := fun _ _ => result }

theorem follows_handled {now : Nat} {w w' : World} {d d' : Duty} {m : Message}
    {rest : List Message} {result : Except String Unit} (hs : d.stage = .handling m rest)
    (h : d.feed now w (.handled result) = (w', some d')) : d.Follows d' :=
  follows_feed (τ := returning result) (fun _ => by rw [hs]; rfl) h

theorem follows_callHandler {now : Nat} {w w' : World} {d d' : Duty} {m : Message}
    {rest : List Message} (hs : d.stage = .handling m rest)
    (h : d.callHandler now w (d.worker.contextOf m) = (w', some d')) : d.Follows d' := by
  unfold callHandler at h
  split at h
  · exact follows_handled hs h
  · cases h
    refine ⟨rfl, ?_, .inl rfl⟩
    simp [Fits, hs, Worker.call?]

theorem follows_stepHandler {now : Nat} {w w' : World} {d d' : Duty} {m : Message}
    {rest : List Message} {r : HandlerRun} (hf : d.Fits) (hs : d.stage = .handling m rest)
    (h : d.stepHandler now w (d.worker.contextOf m) r = (w', some d')) : d.Follows d' := by
  unfold stepHandler at h
  split at h
  · exact follows_callHandler hs h
  · cases h
    refine ⟨rfl, ?_, .inl rfl⟩
    simp [Fits, hs, Worker.call?]
  · exact follows_handled hs h
  · exact follows_handled hs h
  · exact follows_handled hs h
  · -- A handler that panics ends its worker.
    simp only [feed, hs, Worker.react] at h
    cases h
  · cases h
    exact .refl hf

/-- **One step**: a step of a duty answers the call of its worker, or the call
goes on. -/
theorem follows_step {now : Nat} {w w' : World} {d d' : Duty} (hf : d.Fits)
    (h : d.step now w = (w', some d')) : d.Follows d' := by
  unfold step at h
  split at h
  · next hs => exact follows_feed (τ := .calm) (fun _ => by rw [hs]; rfl) h
  · next c hs hc =>
    split at h
    · exact follows_feed (τ := { Worker.Surroundings.calm with
        receive := fun _ => .error Worker.interrupted }) (fun _ => by rw [hs]; rfl) h
    · dsimp only at h
      split at h
      · cases h
        refine ⟨rfl, ?_, .inl rfl⟩
        simp [Fits, hs, Worker.call?]
      · next result _ =>
        exact follows_feed (τ := { Worker.Surroundings.calm with receive := fun _ => result })
          (fun _ => by rw [hs]; rfl) h
  · next m rest context r hs hc =>
    obtain ⟨r', hr⟩ := hf.handling hs
    rw [hc] at hr
    cases hr
    exact follows_stepHandler hf hs h
  · next m verdict rest c hs hc =>
    dsimp only at h
    split at h
    · cases h
      refine ⟨rfl, ?_, .inl rfl⟩
      simp [Fits, hs, Worker.call?]
    · next result _ =>
      exact follows_feed (τ := { Worker.Surroundings.calm with settle := fun _ _ _ => result })
        (fun _ => by rw [hs]; rfl) h
  · next hs => exact follows_feed (τ := .calm) (fun _ => by rw [hs]; rfl) h
  · next hstarting hbacking hreceiving hhandling hsettling =>
    cases hs : d.stage with
    | starting => exact (hstarting hs).elim
    | deciding =>
      exact follows_feed (τ := { Worker.Surroundings.calm with
        callerCancelled := fun _ => w.callerCancelled d.consumer d.crew
        scopeCancelled := fun _ => w.scopeCancelled d.consumer d.crew })
        (fun _ => by rw [hs]; rfl) h
    | receiving =>
      obtain ⟨c, hc⟩ := hf.receiving hs
      exact (hreceiving c hs hc).elim
    | handling m rest =>
      obtain ⟨r, hc⟩ := hf.handling hs
      exact (hhandling m rest _ r hs hc).elim
    | settling m verdict rest =>
      obtain ⟨c, hc⟩ := hf.settling hs
      exact (hsettling m verdict rest c hs hc).elim
    | backingOff => exact (hbacking hs).elim
    | ended how =>
      simp only [feed, hs, Worker.react] at h
      cases h

/-- The call that is begun from one duty to the next: that of the new stage, if the
stage is a new one. -/
def begun (d d' : Duty) : List Worker.Call :=
  if d'.stage = d.stage then [] else (d'.worker.call? d'.stage).toList

/-- The duties that a worker comes to, and the calls it has made by then, in a
world that others change at will. -/
inductive Runs : Duty → List Worker.Call → Prop where
  | start {d : Duty} : d.stage = .starting → d.call = .none → Runs d []
  | step {d d' : Duty} {calls : List Worker.Call} {now : Nat} {w w' : World} :
    Runs d calls → d.step now w = (w', some d') → Runs d' (calls ++ d.begun d')

theorem Runs.fits {d : Duty} {calls : List Worker.Call} (h : d.Runs calls) : d.Fits := by
  induction h with
  | start hs hc => simp [Fits, hs, hc, Worker.call?]
  | step _ hstep ih => exact (follows_step ih hstep).fits

/-- **Every worker at its work has surroundings**: its stages and its calls are
those of a worker whose calls are answered. -/
theorem Runs.exists_surroundings {d : Duty} {calls : List Worker.Call} (h : d.Runs calls) :
    ∃ (σ : Worker.Surroundings) (n : Nat),
      d.stage = σ.stage d.worker n ∧ calls = σ.calls d.worker 0 (n + 1) := by
  induction h with
  | start hs _ => exact ⟨.calm, 0, hs, rfl⟩
  | @step d d' calls _ _ _ hd hstep ih =>
    obtain ⟨σ, n, hn, hcalls⟩ := ih
    obtain ⟨hworker, -, hstage⟩ := follows_step hd.fits hstep
    rw [hworker]
    by_cases hsame : d'.stage = d.stage
    · refine ⟨σ, n, hsame.trans hn, ?_⟩
      rw [begun, if_pos hsame, List.append_nil, hcalls]
    · obtain ⟨τ, hτ⟩ := hstage.resolve_left hsame
      have hnext : d'.stage = (σ.splice τ n).stage d.worker (n + 1) := by
        rw [Worker.Surroundings.stage_splice_succ, hτ n, hn]
      refine ⟨σ.splice τ n, n + 1, hnext, ?_⟩
      rw [Worker.Surroundings.calls_add, Worker.Surroundings.calls_splice (by omega), ← hcalls,
        begun, if_neg hsame, hworker, hnext, Nat.zero_add, Worker.Surroundings.calls_one]

end Session.Duty

end PeekLock
