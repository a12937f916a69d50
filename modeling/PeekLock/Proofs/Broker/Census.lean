import PeekLock.Proofs.Broker.Runs
import PeekLock.Proofs.Broker.Tokens
import PeekLock.Proofs.Counting

/-!
# PeekLock.Proofs.Broker.Census

Counting copies.

A copy that was not completed waits in a queue, is locked, or is in the
hands of a call that has released it and not recorded it yet.  The
`balance` of an entity for a copy is the number of such places.  A step
changes it in two ways only: by the copies that arrive, and by the copy
that it completes (`balance_advance`).
-/

namespace PeekLock

/-- Whether a lock is on the copy of that number, from that entity. -/
def Lock.isOn (e : String) (n : Nat) (l : Lock) : Bool := l.entity = e && l.copy.serial = n

namespace Broker

/-- How often a copy waits in the queue of an entity. -/
def waiting (b : Broker) (e : String) (n : Nat) : Nat := (b.queue e).countP (·.serial = n)

/-- How many locks are on a copy of an entity. -/
def locked (b : Broker) (e : String) (n : Nat) : Nat := b.locks.countP (Lock.isOn e n)

/-- How often a copy has been completed. -/
def completions (b : Broker) (n : Nat) : Nat := b.completed.countP (·.serial = n)

/-- The locks in the hands of the calls. -/
def Traffic.hands (s : Traffic) : List Lock := s.calls.filterMap Entry.held?

/-- How many calls have a copy of an entity in their hands. -/
def Traffic.inHands (s : Traffic) (e : String) (n : Nat) : Nat := s.hands.countP (Lock.isOn e n)

/-- In how many places of an entity a copy is. -/
def Traffic.balance (s : Traffic) (e : String) (n : Nat) : Nat :=
  s.broker.waiting e n + s.broker.locked e n + s.inHands e n

/-- One for a lock on that copy, and zero for any other or none. -/
def onCopy (e : String) (n : Nat) (l : Option Lock) : Nat := if l.any (Lock.isOn e n) then 1 else 0

theorem onCopy_none (e : String) (n : Nat) : onCopy e n none = 0 := rfl

/-! ## What the sections do to the counts -/

theorem countP_serial_copiesIn (e : String) (n : Nat) (copies : List (String × Copy)) :
    (copiesIn e copies).countP (·.serial = n) = copies.countP (isFor e n) := by
  rw [copiesIn, List.countP_map, List.countP_filter]
  congr 1
  funext p
  simp only [Function.comp_apply, isFor, Bool.and_comm]

theorem countP_serial_copiesOf (e : String) (n : Nat) (locks : List Lock) :
    (copiesOf e locks).countP (·.serial = n) = locks.countP (Lock.isOn e n) := by
  rw [copiesOf, List.countP_map, List.countP_filter]
  congr 1
  funext l
  simp only [Function.comp_apply, Lock.isOn, Bool.and_comm]

/-- New locks are on the copies that they are made for. -/
theorem countP_lockAll (supply : Identifier.Supply) (r : Receiver) (k : Nat) (copies : List Copy)
    (e : String) (n : Nat) : (lockAll supply r k copies).countP (Lock.isOn e n) =
      if e = r.entity then copies.countP (·.serial = n) else 0 := by
  induction copies generalizing k with
  | nil => simp [lockAll]
  | cons c rest ih =>
    rw [lockAll, List.countP_cons, ih]
    by_cases he : e = r.entity
    · by_cases hn : c.serial = n <;> simp [Lock.isOn, Copy.handOut, he, hn]
    · simp [Lock.isOn, he, Ne.symm he]

/-- Dropping the lock of a token drops one lock, if tokens are unique. -/
theorem countP_filter_token {locks : List Lock} (hd : (locks.map (·.token)).Nodup) {l : Lock}
    (hl : l ∈ locks) (e : String) (n : Nat) :
    (locks.filter (·.token ≠ l.token)).countP (Lock.isOn e n) + onCopy e n (some l) =
      locks.countP (Lock.isOn e n) := by
  induction locks with
  | nil => contradiction
  | cons k rest ih =>
    rw [List.map_cons, List.nodup_cons] at hd
    obtain ⟨hk, hd⟩ := hd
    rw [List.mem_cons] at hl
    obtain rfl | hl := hl
    · have hrest : rest.filter (·.token ≠ l.token) = rest := by
        rw [List.filter_eq_self]
        intro j hj
        have hne : j.token ≠ l.token := fun he => hk (he ▸ List.mem_map_of_mem hj)
        simpa using hne
      rw [List.filter_cons_of_neg (by simp), hrest, List.countP_cons]
      rfl
    · have hne : k.token ≠ l.token := fun he => hk (he ▸ List.mem_map_of_mem hl)
      rw [List.filter_cons_of_pos (by simpa using hne), List.countP_cons, List.countP_cons,
        ← ih hd hl]
      omega

theorem stays_take (b : Broker) (r : Receiver) (most : Nat) (e : String) (n : Nat) :
    (b.take r most).2.waiting e n + (b.take r most).2.locked e n =
      b.waiting e n + b.locked e n := by
  simp only [waiting, locked]
  rw [queue_take, locks_take, List.countP_append, countP_lockAll]
  by_cases he : e = r.entity
  · subst he
    have hq := congrArg (List.countP (·.serial = n)) (List.take_append_drop most (b.queue r.entity))
    rw [List.countP_append] at hq
    rw [if_pos rfl, if_pos rfl]
    omega
  · rw [if_neg he, if_neg he]
    omega

theorem stays_lapse (b : Broker) (r : Receiver) (e : String) (n : Nat) :
    (b.lapse r).waiting e n + (b.lapse r).locked e n = b.waiting e n + b.locked e n := by
  have hl : (b.lapse r).locks = b.locks.filter (·.receiver ≠ r.id) := by rw [lapse_eq]
  have hs := b.locks.countP_eq_countP_filter_add (Lock.isOn e n) (·.receiver = r.id)
  simp only [waiting, locked]
  rw [hl, queue_lapse, List.countP_append, List.countP_reverse, countP_serial_copiesOf, owned, hs]
  simp only [ne_eq, decide_not]
  omega

/-- A transfer moves copies, and adds those that arrive; only the hands of the
calls gain or lose beside that. -/
theorem stays_apply {b : Broker} (hb : Minted b) {t : Transfer}
    (ht : ∀ l, t = .release l → l ∈ b.locks) (e : String) (n : Nat) :
    (t.apply b).waiting e n + (t.apply b).locked e n + onCopy e n t.takesUp? =
      b.waiting e n + b.locked e n + onCopy e n t.restores? +
        (t.arrivals b).countP (isFor e n) := by
  cases t with
  | nothing => rfl
  | arrival target m =>
    have hl : (b.enqueue target m).locks = b.locks := by rw [enqueue_frame]
    simp only [Transfer.apply, Transfer.arrivals, waiting, locked]
    rw [queue_enqueue, List.countP_append, countP_serial_copiesIn, hl]
    simp only [Transfer.takesUp?, Transfer.restores?, onCopy_none]
    omega
  | take r most => exact congrArg (· + 0) (stays_take b r most e n)
  | release l =>
    have hu := countP_filter_token hb.distinct (ht l rfl) e n
    simp only [Transfer.apply, Transfer.arrivals, Transfer.takesUp?, Transfer.restores?, waiting,
      locked, unlock, queue, List.countP_nil]
    rw [Nat.add_assoc, hu]
    rfl
  | completion l => rfl
  | restoration l =>
    simp only [Transfer.apply, Transfer.arrivals, waiting, locked, List.countP_nil]
    rw [queue_recordAbandoned, List.countP_append]
    have hc : (if e = l.entity then [l.copy] else []).countP (·.serial = n) =
        onCopy e n (some l) := by
      by_cases he : e = l.entity
      · simp [onCopy, Lock.isOn, he, List.countP_cons]
      · simp [onCopy, Lock.isOn, he, Ne.symm he]
    rw [hc]
    simp only [Transfer.takesUp?, Transfer.restores?, onCopy_none, recordAbandoned, giveBack]
    omega
  | lapse r => exact congrArg (· + 0) (stays_lapse b r e n)

theorem completions_apply (b : Broker) (t : Transfer) (n : Nat) :
    (t.apply b).completions n =
      b.completions n + if t.finishes?.any (·.copy.serial = n) then 1 else 0 := by
  cases t with
  | nothing => rfl
  | arrival target m => simp only [Transfer.apply, completions]; rw [enqueue_frame]; rfl
  | take r most => rfl
  | release l => rfl
  | completion l =>
    simp only [Transfer.apply, completions, recordCompleted]
    rw [List.countP_append, List.countP_singleton]
    rfl
  | restoration l => rfl
  | lapse r => simp only [Transfer.apply, completions]; rw [lapse_eq]; rfl

/-! ## What a step does to the balance -/

namespace Traffic

theorem inHands_eq (s : Traffic) (e : String) (n : Nat) :
    s.inHands e n = s.calls.countP fun x => x.held?.any (Lock.isOn e n) := by
  rw [inHands, hands, List.countP_filterMap]
  congr 1
  funext x
  cases x.held? <;> rfl

/-- The hands of the calls gain what a step takes up, and lose what it puts down. -/
theorem inHands_advance {s : Traffic} {i began : Nat} {c : Call}
    (hi : s.calls[i]? = some ⟨began, .on c⟩) (e : String) (n : Nat) :
    (s.advance i began c).inHands e n + onCopy e n (c.transfer s.broker).putsDown? =
      s.inHands e n + onCopy e n (c.transfer s.broker).takesUp? := by
  have hbefore : Entry.held? ⟨began, .on c⟩ = (c.transfer s.broker).putsDown? :=
    c.held?_eq_putsDown? s.broker
  have hafter := c.held?_step s.now began s.broker
  have h := countP_set_add (fun x : Entry => x.held?.any (Lock.isOn e n)) hi
    ⟨began, (c.step s.now s.broker).progress⟩
  simp only [hbefore, hafter] at h
  rw [inHands_eq, inHands_eq]
  exact h

theorem onCopy_putsDown? (e : String) (n : Nat) (t : Transfer) :
    onCopy e n t.putsDown? = onCopy e n t.restores? + onCopy e n t.finishes? := by
  cases t with
  | completion l => exact (Nat.zero_add _).symm
  | _ => rfl

/-- **The balance**: a step changes the balance of an entity by the copies that
arrive there, and by the copy that it completes. -/
theorem balance_advance {s : Traffic} (hb : Minted s.broker) {i began : Nat} {c : Call}
    (hi : s.calls[i]? = some ⟨began, .on c⟩) (e : String) (n : Nat) :
    (s.advance i began c).balance e n + onCopy e n (c.transfer s.broker).finishes? =
      s.balance e n + ((c.transfer s.broker).arrivals s.broker).countP (isFor e n) := by
  have hk := c.step_keepsCopies s.now s.broker
  have hs := stays_apply hb (fun _ => Call.mem_locks_of_release) e n (t := c.transfer s.broker)
  have hh := inHands_advance hi e n
  have hw : (s.advance i began c).broker.waiting e n =
      ((c.transfer s.broker).apply s.broker).waiting e n := by
    rw [waiting, waiting, ← hk.queue e]
    rfl
  have hl : (s.advance i began c).broker.locked e n =
      ((c.transfer s.broker).apply s.broker).locked e n :=
    hk.locks.countP_eq _
  rw [onCopy_putsDown?] at hh
  simp only [balance, hw, hl]
  omega

theorem completions_advance (s : Traffic) (i began : Nat) (c : Call) (n : Nat) :
    (s.advance i began c).broker.completions n = s.broker.completions n +
      if (c.transfer s.broker).finishes?.any (·.copy.serial = n) then 1 else 0 := by
  rw [← completions_apply, completions, completions,
    ← (c.step_keepsCopies s.now s.broker).completed]
  rfl

end Traffic

end Broker

end PeekLock
