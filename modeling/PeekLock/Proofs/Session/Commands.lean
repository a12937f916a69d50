import PeekLock.Proofs.Broker.Solitude
import PeekLock.Proofs.Schedule
import PeekLock.Session.Run

/-!
# PeekLock.Proofs.Session.Commands

Commands of a session in which nothing else is to be done.

A command that talks to the bus in memory takes the steps of its call, one
after the other.  It leaves the bus as the call does, with an answer
(`World.turned`), and nothing else of the session changes.
-/

namespace PeekLock.Session

variable {now n : Nat} {w : World} {b : Broker}

/-! ## Worlds -/

namespace World

/-- The bus in memory, what was logged and what is answered, changed. -/
def turned (w : World) (b : Broker) (logs : List LogRecord) (answer : Option Answer) : World :=
  { w with bus := { w.bus with broker := b }, logs := logs, answer := answer }

theorem write_eq (w : World) (records : List LogRecord) :
    w.write records = { w with logs := w.logs ++ records } := by
  cases records with
  | nil => rw [List.append_nil]; rfl
  | cons => rfl

/-- A step of a call on the bus in memory turns nothing else. -/
theorem afterBus_liftMemory {κ κ' α α' : Type} (w : World) (point : κ → κ') (result : α → α')
    (r : Step Broker κ α) : w.afterBus (w.bus.liftMemory point result r) =
      w.turned r.state (w.logs ++ r.logs) w.answer :=
  write_eq _ _

theorem isSome_answer_replySent (w : World) (result : Except BusError (Option String)) :
    (w.replySent result).answer.isSome = true := by
  cases result with
  | error => rfl
  | ok id => cases id <;> rfl

end World

theorem isSome_answer_settleIn (w : World) (purpose : Purpose) (result : Except BusError Source) :
    (settleIn w purpose result).answer.isSome = true := by
  cases purpose <;> cases result <;> rfl

/-! ## Calls -/

/-- A task that has the session to itself carries out a command, in so many steps. -/
abbrev Carries (now : Nat) (w : World) (t : Task) (w' : World) (n : Nat) : Prop :=
  Solo behaviour (·.answer.isSome) now w t w' n

section

variable {κ α : Type}

/-- The turn of a task that hands on to a call on the bus in memory. -/
def turnOf (w : World) (r : Step Broker κ α) (task : κ → Task) (finish : World → α → World) :
    TaskTurn :=
  let w := w.turned r.state (w.logs ++ r.logs) w.answer
  match r.progress with
  | .on c => goOn w (task c)
  | .done a => halt (finish w a)

variable (f : Broker → κ → Step Broker κ α) (call : κ → Broker.Call)
  (ended : α → Broker.Outcome) (task : κ → Task) (finish : World → α → World)

/-- A task that hands on to a call on the bus in memory takes the steps of the call. -/
theorem carries_of_takes
    (hcall : ∀ b c, (call c).step now b = (f b c).map call ended)
    (htask : ∀ w c, step now w (task c) = turnOf w (f w.bus.broker c) task finish)
    (hready : ∀ w c, isReady now w (task c) = true)
    (hfinish : ∀ w a, (finish w a).answer.isSome = true) {c : κ} {o : Broker.Outcome}
    (h : (call c).Takes now w.bus.broker b o n) (hw : w.answer = none) :
    ∃ logs a, ended a = o ∧ Carries now w (task c) (finish (w.turned b logs none) a) n := by
  generalize hc : call c = k at h
  generalize hb : w.bus.broker = b₀ at h
  induction h generalizing w c with
  | last hr hp =>
    subst hc hb
    rw [hcall] at hp
    obtain ⟨a, hp, ha⟩ := Progress.map_eq_done hp
    have hstep := htask w c
    simp only [turnOf, hp, hw] at hstep
    rw [hcall]
    exact ⟨_, a, ha, .last (by rw [hw]; rfl) (hready w c) hstep (hfinish _ _)⟩
  | step hr hon h ih =>
    subst hc hb
    rw [hcall] at hon
    obtain ⟨c', hp, rfl⟩ := Progress.map_eq_on hon
    have hstep := htask w c
    simp only [turnOf, hp, hw] at hstep
    rw [hcall] at ih
    obtain ⟨logs, a, ha, hrest⟩ := ih (w := w.turned (f w.bus.broker c).state
      (w.logs ++ (f w.bus.broker c).logs) none) rfl rfl rfl
    exact ⟨logs, a, ha, .step (by rw [hw]; rfl) (hready w c) hstep hrest⟩

end

/-- A send to the bus in memory. -/
theorem carries_sending {c : Broker.Send} {result : Except BusError String}
    (h : (Broker.Call.sending c).Takes now w.bus.broker b (.sent result) n)
    (hw : w.answer = none) : ∃ logs, Carries now w (.sending (.memoryOne c))
      ((w.turned b logs none).replySent (result.map some)) n := by
  have htask (w : World) (c : Broker.Send) : step now w (.sending (.memoryOne c)) =
      turnOf w (c.step now w.bus.broker) (fun c => .sending (.memoryOne c))
        (fun w a => w.replySent (a.map some)) := by
    simp only [step, turnOf, Bus.Send.step, World.afterBus_liftMemory]
    cases hp : (c.step now w.bus.broker).progress <;> simp only [Bus.liftMemory, hp, Progress.map]
  obtain ⟨logs, a, ha, hcarries⟩ := carries_of_takes (fun b c => c.step now b)
    Broker.Call.sending .sent _ _ (fun _ _ => rfl) htask (fun _ _ => rfl)
    (fun _ _ => World.isSome_answer_replySent _ _) h hw
  cases ha
  exact ⟨logs, hcarries⟩

/-- The creation of a receiver of the bus in memory. -/
theorem carries_opening {c : Broker.Open} (purpose : Purpose)
    {result : Except BusError Broker.Receiver}
    (h : (Broker.Call.opening c).Takes now w.bus.broker b (.opened result) n)
    (hw : w.answer = none) : ∃ logs, Carries now w (.opening (.memory c) purpose)
      (settleIn (w.turned b logs none) purpose (result.map .memory)) n := by
  have htask (w : World) (c : Broker.Open) : step now w (.opening (.memory c) purpose) =
      turnOf w (c.step w.bus.broker) (fun c => .opening (.memory c) purpose)
        (fun w a => settleIn w purpose (a.map .memory)) := by
    simp only [step, turnOf, Bus.Open.step, World.afterBus_liftMemory]
    cases hp : (c.step w.bus.broker).progress <;> simp only [Bus.liftMemory, hp, Progress.map]
  obtain ⟨logs, a, ha, hcarries⟩ := carries_of_takes (fun b c => c.step b)
    Broker.Call.opening .opened _ _ (fun _ _ => rfl) htask (fun _ _ => rfl)
    (fun _ _ => isSome_answer_settleIn _ _ _) h hw
  cases ha
  exact ⟨logs, hcarries⟩

end PeekLock.Session
