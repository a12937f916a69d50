import PeekLock.Proofs.Broker.Runs
import PeekLock.Proofs.EntityPath

/-!
# PeekLock.Proofs.Broker.Sends

How a send to the in-memory bus ends.

The target decides, and nothing else: once it was let through, a send ends
well whatever other calls do, and a batch does too.  So the verdict of a
send that is on its way is known from the start, no step changes it, and
every step leaves fewer to take.
-/

namespace PeekLock.Broker

/-! ## Verdicts -/

/-- Messages can be sent to names, and to nothing else. -/
theorem checkTarget_eq_ok_iff (target : String) :
    checkTarget target = .ok () ↔ EntityPath.IsSegment target := by
  constructor
  · intro h
    unfold checkTarget at h
    split at h
    · cases h
    · next name hp =>
      obtain ⟨rfl, hs⟩ := EntityPath.parse_eq_queue_iff.mp hp
      exact hs
    · cases h
  · intro h
    rw [checkTarget, EntityPath.parse_eq_queue_iff.mpr ⟨rfl, h⟩]

/-- A target that is refused is no queue and no topic. -/
theorem invalidQueueName_of_checkTarget {target : String} {e : BusError}
    (h : checkTarget target = .error e) : ∃ name, e = .invalidQueueName name := by
  unfold checkTarget at h
  split at h
  · next e' hp =>
    cases h
    exact EntityPath.invalidQueueName_of_parse hp
  · cases h
  · cases h
    exact ⟨_, rfl⟩

/-- How a send is going to end. -/
def Send.verdict : Send → Except BusError Unit
  | .checking target _ _ => checkTarget target
  | .enqueueing .. | .announcing .. => .ok ()

/-- How the send of a batch is going to end. -/
def SendBatch.verdict : SendBatch → Except BusError Unit
  | .checking target _ _ => checkTarget target
  | .enqueueing .. | .announcing .. => .ok ()

/-- How a call is going to end, if it sends something. -/
def Call.sendVerdict? : Call → Option (Except BusError Unit)
  | .sending c => some c.verdict
  | .sendingBatch c => some c.verdict
  | _ => none

/-- How a call has ended, if it sent something. -/
def Outcome.sendVerdict? : Outcome → Option (Except BusError Unit)
  | .sent result => some (result.map fun _ => ())
  | .sentBatch result => some result
  | _ => none

/-- How something that is sent ends. -/
def Entry.sendVerdict? : Entry → Option (Except BusError Unit)
  | ⟨_, .on c⟩ => c.sendVerdict?
  | ⟨_, .done o⟩ => o.sendVerdict?

theorem Send.verdict_step (now : Nat) (b : Broker) (c : Send) (began : Nat) :
    (Entry.mk began ((c.step now b).progress.map .sending .sent)).sendVerdict? =
      some c.verdict := by
  cases c with
  | checking target body options =>
    simp only [Send.step, Send.verdict]
    split
    · next h => rw [h]; rfl
    · next h => rw [h]; rfl
  | enqueueing => rfl
  | announcing => rfl

theorem SendBatch.verdict_goOn (now : Nat) (b : Broker) (target : String) (count : Nat)
    (options : SendOptions) (bodies : List (List UInt8)) (began : Nat) :
    (Entry.mk began ((SendBatch.goOn now b target count options bodies).progress.map
      .sendingBatch .sentBatch)).sendVerdict? = some (.ok ()) := by
  cases bodies <;> rfl

theorem SendBatch.verdict_step (now : Nat) (b : Broker) (c : SendBatch) (began : Nat) :
    (Entry.mk began ((c.step now b).progress.map .sendingBatch .sentBatch)).sendVerdict? =
      some c.verdict := by
  cases c with
  | checking target bodies options =>
    simp only [SendBatch.step, SendBatch.verdict]
    split
    · next h => rw [h]; rfl
    · next h => rw [h]; exact verdict_goOn ..
  | enqueueing => rfl
  | announcing => exact verdict_goOn ..

/-- No step changes how a call that sends something is going to end. -/
theorem Call.sendVerdict_step (now : Nat) (b : Broker) {c : Call} {v : Except BusError Unit}
    (h : c.sendVerdict? = some v) (began : Nat) :
    (Entry.mk began (c.step now b).progress).sendVerdict? = some v := by
  cases c with
  | sending c => exact (c.verdict_step now b began).trans h
  | sendingBatch c => exact (c.verdict_step now b began).trans h
  | _ => contradiction

/-! ## Steps to take -/

/-- How many steps a call that sends something has left. -/
def Call.sendSteps : Call → Nat
  | .sending (.checking ..) => 3
  | .sending (.enqueueing ..) => 2
  | .sending (.announcing ..) => 1
  | .sendingBatch (.checking _ bodies _) => 2 * bodies.length + 1
  | .sendingBatch (.enqueueing _ _ _ rest _) => 2 * rest.length + 2
  | .sendingBatch (.announcing _ _ rest _) => 2 * rest.length + 1
  | _ => 0

theorem SendBatch.sendSteps_goOn {now : Nat} {b : Broker} {target : String} {count : Nat}
    {options : SendOptions} {bodies : List (List UInt8)} {c : SendBatch}
    (h : (SendBatch.goOn now b target count options bodies).progress = .on c) :
    (Call.sendingBatch c).sendSteps < 2 * bodies.length + 1 := by
  cases bodies with
  | nil => cases h
  | cons body rest =>
    cases h
    exact Nat.lt_succ_self _

/-- A step leaves fewer steps to take. -/
theorem Call.sendSteps_step {now : Nat} {b : Broker} {c c' : Call} {v : Except BusError Unit}
    (hv : c.sendVerdict? = some v) (h : (c.step now b).progress = .on c') :
    c'.sendSteps < c.sendSteps := by
  cases c with
  | sending c =>
    obtain ⟨c', hp, rfl⟩ := Progress.map_eq_on h
    cases c with
    | checking target body options =>
      simp only [Send.step] at hp
      split at hp
      · cases hp
      · cases hp
        exact Nat.lt_succ_self _
    | enqueueing =>
      cases hp
      exact Nat.lt_succ_self _
    | announcing => cases hp
  | sendingBatch c =>
    obtain ⟨c', hp, rfl⟩ := Progress.map_eq_on h
    cases c with
    | checking target bodies options =>
      simp only [SendBatch.step] at hp
      split at hp
      · cases hp
      · exact SendBatch.sendSteps_goOn hp
    | enqueueing =>
      cases hp
      exact Nat.lt_succ_self _
    | announcing => exact SendBatch.sendSteps_goOn hp
  | _ => contradiction

/-! ## Runs -/

namespace Traffic

/-- How something that is sent ends is known from the start. -/
theorem Leads.sendVerdict {s t : Traffic} (h : s.Leads t) {i : Nat} {x : Entry}
    (hi : s.calls[i]? = some x) {v : Except BusError Unit} (hx : x.sendVerdict? = some v) :
    ∃ y, t.calls[i]? = some y ∧ y.sendVerdict? = some v :=
  h.entry_invariant (P := fun y => y.sendVerdict? = some v) hi hx
    (fun now b began _ hc => Call.sendVerdict_step now b hc began) fun _ _ hc => nomatch hc

/-- What is sent can be brought to its end. -/
theorem exists_done_of_sendVerdict {s : Traffic} {i began : Nat} {c : Call}
    (hi : s.calls[i]? = some ⟨began, .on c⟩) {v : Except BusError Unit}
    (hv : c.sendVerdict? = some v) :
    ∃ t o, s.Leads t ∧ t.calls[i]? = some ⟨began, .done o⟩ := by
  have hready : c.isReady s.now s.broker = true := by
    cases c with
    | receiving => contradiction
    | _ => rfl
  have hlead : s.Leads (s.advance i began c) := (Leads.refl s).step (after_advance hi hready)
  have hnext := getElem?_advance hi
  cases hp : (c.step s.now s.broker).progress with
  | done o => exact ⟨_, o, hlead, hp ▸ hnext⟩
  | on c' =>
    rw [hp] at hnext
    have hv' : c'.sendVerdict? = some v := by
      have := Call.sendVerdict_step s.now s.broker hv began
      rwa [hp] at this
    have hless := Call.sendSteps_step hv hp
    obtain ⟨t, o, ht, ho⟩ := exists_done_of_sendVerdict hnext hv'
    exact ⟨t, o, hlead.trans ht, ho⟩
termination_by c.sendSteps

end Traffic

end PeekLock.Broker
