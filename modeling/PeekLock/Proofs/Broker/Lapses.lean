import PeekLock.Proofs.Broker.Redeliveries
import PeekLock.Proofs.Broker.Refusals
import PeekLock.Proofs.Broker.Registrations

/-!
# PeekLock.Proofs.Broker.Lapses

What a close of a receiver gives back.

A close that nothing interrupts marks its receiver, gives back the copies
that the receiver has locked, and tells so (`Closing`); the locks are given
back in whatever order the table has them.  After that a request on the
receiver is refused in its first step, which changes nothing, and the
locks of all other receivers are what they were.
-/

namespace PeekLock.Broker

/-! ## What is given back -/

/-- The copies that a receiver has locked have gone to the front of its queue, in some order, and
their locks are gone. -/
structure GivesBack (r : Receiver) (before after : Broker) : Prop where
  locks : after.locks.Perm (before.locks.filter (·.receiver ≠ r.id))
  queue : ∃ copies : List Copy, copies.Perm ((before.owned r).map (·.copy)) ∧
    after.queue r.entity = copies ++ before.queue r.entity
  queues : ∀ e, e ≠ r.entity → after.queue e = before.queue e

/-- When the locks of a receiver lapse, in whatever order, all that it has locked is given back. -/
theorem givesBack_lapse {b b' : Broker} {r : Receiver}
    (he : ∀ l ∈ b.locks, l.receiver = r.id → l.entity = r.entity) (hl : b'.locks.Perm b.locks)
    (hq : ∀ e, b'.queue e = b.queue e) : GivesBack r b (b'.lapse r) := by
  have howned : (b'.owned r).Perm (b.owned r) := hl.filter _
  have hentity {l : Lock} (hl : l ∈ b'.owned r) : l.entity = r.entity := by
    obtain ⟨hl, hr⟩ := List.mem_filter.mp (howned.mem_iff.mp hl)
    exact he l hl (of_decide_eq_true hr)
  constructor
  case locks =>
    rw [lapse_eq]
    exact hl.filter _
  case queue =>
    have hall : copiesOf r.entity (b'.owned r) = (b'.owned r).map (·.copy) := by
      rw [copiesOf, List.filter_eq_self.mpr fun l hl => decide_eq_true (hentity hl)]
    refine ⟨_, ?_, (queue_lapse b' r r.entity).trans (congrArg _ (hq r.entity))⟩
    rw [hall]
    exact (List.reverse_perm _).trans (howned.map _)
  case queues =>
    intro e hne
    have hnone : copiesOf e (b'.owned r) = [] := by
      rw [copiesOf, List.filter_eq_nil_iff.mpr, List.map_nil]
      exact fun l hl => by simpa [hentity hl] using Ne.symm hne
    rw [queue_lapse, hnone, List.reverse_nil, List.nil_append, hq]

namespace Traffic

variable {s t u : Traffic} {r : Receiver} {i : Nat}

/-! ## A close that nothing interrupts -/

/-- Nothing happens but steps of the call of that number, and that the table of locks is
rearranged. -/
inductive Undisturbed (i : Nat) : Traffic → Traffic → Prop where
  | refl (s : Traffic) : Undisturbed i s s
  | advance {s t u : Traffic} : Undisturbed i s t → t.after (.advance i) = some u →
    Undisturbed i s u
  | rearrange {s t u : Traffic} {locks : List Lock} : Undisturbed i s t →
    t.after (.rearrange locks) = some u → Undisturbed i s u

/-- How far a close has come that has the bus to itself, and what it has made of the bus. -/
inductive Closing (r : Receiver) (b : Broker) : Progress Call Outcome → Broker → Prop where
  | marking (locks : List Lock) (hl : locks.Perm b.locks) :
    Closing r b (.on (.closing ⟨r, .marking⟩)) { b with locks := locks }
  | lapsing (locks : List Lock) (hl : locks.Perm b.locks) :
    Closing r b (.on (.closing ⟨r, .lapsing⟩)) { b with locks := locks, closed := r.id :: b.closed }
  | announcing (queues : Table String (List Copy)) (locks : List Lock)
    (hb : GivesBack r b { b with queues := queues, locks := locks }) :
    Closing r b (.on (.closing ⟨r, .announcing⟩))
      { b with
        queues := queues
        locks := locks
        closed := r.id :: b.closed
        closedReceivers := b.closedReceivers + 1 }
  | done (queues : Table String (List Copy)) (locks : List Lock)
    (hb : GivesBack r b { b with queues := queues, locks := locks }) :
    Closing r b (.done (.closed (.ok ())))
      { b with
        queues := queues
        locks := locks
        closed := r.id :: b.closed
        closedReceivers := b.closedReceivers + 1
        broadcasts := b.broadcasts + 1 }

namespace Closing

variable {b b' : Broker} {p : Progress Call Outcome}

theorem step {c : Call} (ho : b.isOpen r = true)
    (he : ∀ l ∈ b.locks, l.receiver = r.id → l.entity = r.entity) (h : Closing r b (.on c) b')
    (now : Nat) : Closing r b (c.step now b').progress (c.step now b').state := by
  cases h with
  | marking locks hl =>
    have ho' : isOpen { b with locks := locks } r = true := ho
    simp only [Call.step, Step.map, Close.step, ho', if_true]
    exact .lapsing locks hl
  | lapsing locks hl =>
    let marked : Broker := { b with locks := locks, closed := r.id :: b.closed }
    have hb : GivesBack r b (marked.lapse r) := givesBack_lapse he hl fun _ => rfl
    have hlocks := hb.locks
    simp only [Call.step, Step.map, Close.step]
    rw [lapse_eq] at hlocks ⊢
    exact .announcing _ _ ⟨hlocks, hb.queue, hb.queues⟩
  | announcing queues locks hb => exact .done queues locks hb

theorem rearrange {locks : List Lock} (hl : locks.Perm b'.locks) (h : Closing r b p b') :
    Closing r b p { b' with locks := locks } := by
  cases h with
  | marking l hp => exact .marking locks (hl.trans hp)
  | lapsing l hp => exact .lapsing locks (hl.trans hp)
  | announcing queues l hb =>
    exact .announcing queues locks ⟨hl.trans hb.locks, hb.queue, hb.queues⟩
  | done queues l hb => exact .done queues locks ⟨hl.trans hb.locks, hb.queue, hb.queues⟩

end Closing

/-- A close that nothing interrupts has come so far. -/
theorem closing_of_undisturbed (hr : r ∈ s.receivers) (hs : s.Reachable)
    (ho : s.broker.isOpen r = true) (h : Undisturbed s.calls.length (s.accept (.close r)) t) :
    ∃ p, t.calls[s.calls.length]? = some ⟨s.now, p⟩ ∧ Closing r s.broker p t.broker := by
  have he : ∀ l ∈ s.broker.locks, l.receiver = r.id → l.entity = r.entity := fun l hl hid =>
    congrArg Receiver.entity (hs.manned.distinct _ (hs.manned.locks l hl) r hr hid)
  induction h with
  | refl => exact ⟨_, List.getElem?_concat_length, .marking s.broker.locks .rfl⟩
  | @advance t u _ hm ih =>
    obtain ⟨p, hi, hp⟩ := ih
    cases p with
    | on c =>
      obtain ⟨-, rfl⟩ := eq_advance hi hm
      exact ⟨_, getElem?_advance hi, hp.step ho he t.now⟩
    | done o =>
      simp only [after, hi] at hm
      contradiction
  | rearrange _ hm ih =>
    obtain ⟨p, hi, hp⟩ := ih
    simp only [after] at hm
    split at hm
    · next hl =>
      cases hm
      exact ⟨p, hi, hp.rearrange (List.isPerm_iff.mp hl)⟩
    · contradiction

/-- A call that takes its steps up to the end ends so, left alone. -/
theorem alone_of_takes {b' : Broker} {c : Call} {o : Outcome} {began n : Nat}
    (hi : s.calls[i]? = some ⟨began, .on c⟩) (h : c.Takes s.now s.broker b' o n) :
    ∃ u, Alone i o s u := by
  generalize hnow : s.now = now at h
  generalize hbroker : s.broker = b at h
  induction h generalizing s with
  | last hr hp =>
    subst hnow hbroker
    have hnext := getElem?_advance hi
    rw [hp] at hnext
    exact ⟨_, .step (after_advance hi hr) (.done hnext)⟩
  | step hr hp _ ih =>
    subst hnow hbroker
    have hnext := getElem?_advance hi
    rw [hp] at hnext
    obtain ⟨u, hu⟩ := ih hnext rfl rfl
    exact ⟨u, .step (after_advance hi hr) hu⟩

/-- The first close of a receiver takes three steps, if it has the bus to itself. -/
theorem takes_close {b : Broker} (ho : b.isOpen r = true) (now : Nat) : ∃ b',
    (Request.close r).call.Takes now b b' (.closed (.ok ())) 3 := by
  have hmarks : (Call.closing ⟨r, .marking⟩).step now b =
      { state := { b with closed := r.id :: b.closed }
        progress := .on (.closing ⟨r, .lapsing⟩) } := by
    simp only [Call.step, Step.map, Close.step, ho, if_true]
    rfl
  exact ⟨_, .of_step hmarks rfl rfl (.step rfl rfl (.last rfl rfl))⟩

end Traffic

/-! ## A closed receiver -/

/-- How a request ends whose receiver is closed. -/
def Request.onceClosed? : Request → Option Outcome
  | .receive .. => some (.received (.error .receiverClosed))
  | .settle .. => some (.settled (.error .receiverClosed))
  | .close _ => some (.closed (.ok ()))
  | _ => none

/-- A request on a closed receiver ends in its first step, and changes nothing. -/
theorem Request.step_onceClosed {q : Request} {r : Receiver} {o : Outcome}
    (hr : q.receiver? = some r) (ho : q.onceClosed? = some o) {b : Broker}
    (hb : b.isOpen r = false) (now : Nat) :
    q.call.isReady now b = true ∧ (q.call.step now b).state = b ∧
      (q.call.step now b).progress = .done o := by
  cases q with
  | receive k most timeout | settle k token verdict | close k =>
    cases hr
    cases ho
    simp only [Request.call, Call.step, Step.map, Receive.step, Settle.step, Close.step, hb,
      Bool.false_eq_true, if_false, Progress.map]
    trivial
  | _ => cases hr

/-- A receive that has not begun changes nothing when it is dropped. -/
theorem Request.drop_call {q : Request} {c : Receive} (hc : q.call = .receiving c) (b : Broker) :
    c.drop b = b := by
  cases q with
  | receive r most timeout =>
    cases hc
    rfl
  | _ => cases hc

namespace Traffic

variable {s t u : Traffic} {r : Receiver} {q : Request} {o : Outcome} {i began : Nat}

/-- A request on a closed receiver: it has taken no step, and takes none that changes anything;
or it is over. -/
inductive Refuses (s : Traffic) (i began : Nat) (q : Request) (o : Outcome) : Prop where
  | waits (hi : s.calls[i]? = some ⟨began, .on q.call⟩)
    (ends : ∃ t, s.after (.advance i) = some t ∧ t.calls[i]? = some ⟨began, .done o⟩ ∧
      t.broker = s.broker)
    (drops : ∀ t, s.after (.drop i) = some t → t.broker = s.broker)
  | ended (hi : s.calls[i]? = some ⟨began, .done o⟩)
  | dropped (hi : s.calls[i]? = some ⟨began, .done .dropped⟩)
    (hq : ∃ r most timeout, q = .receive r most timeout)

/-- What has become of a request on a closed receiver. -/
theorem Leads.entry_of_closed (h : (s.accept q).Leads t) (hr : q.receiver? = some r)
    (ho : q.onceClosed? = some o) (hc : s.broker.isOpen r = false) :
    t.calls[s.calls.length]? = some ⟨s.now, .on q.call⟩ ∨
      t.calls[s.calls.length]? = some ⟨s.now, .done o⟩ ∨
        t.calls[s.calls.length]? = some ⟨s.now, .done .dropped⟩ ∧
          ∃ r most timeout, q = .receive r most timeout := by
  induction h with
  | refl => exact .inl List.getElem?_concat_length
  | @step t u m hl hm ih =>
    have hkept {x : Outcome} (hx : t.calls[s.calls.length]? = some ⟨s.now, .done x⟩) :
        u.calls[s.calls.length]? = some ⟨s.now, .done x⟩ :=
      (Leads.step (.refl t) hm).getElem?_done hx
    obtain hi | hi | ⟨hi, hq⟩ := ih
    · obtain ⟨hlt, -⟩ := List.getElem?_eq_some_iff.mp hi
      obtain ⟨_, -, -, rfl⟩ | ⟨j, began, c, -, hj, -, rfl⟩ | ⟨j, began, c, -, hj, rfl⟩ |
        ⟨ms, -, rfl⟩ | ⟨locks, -, -, rfl⟩ := after_cases hm
      · exact .inl ((List.getElem?_append_left hlt).trans hi)
      · by_cases hij : j = s.calls.length
        · subst hij
          cases hi.symm.trans hj
          have hclosed : t.broker.isOpen r = false := hl.isOpen_eq_false hc
          rw [getElem?_advance hj, (Request.step_onceClosed hr ho hclosed t.now).2.2]
          exact .inr (.inl rfl)
        · exact .inl ((getElem?_advance_ne hij).trans hi)
      · by_cases hij : j = s.calls.length
        · subst hij
          have hcall := hi.symm.trans hj
          injection hcall with hcall
          injection hcall with hbegan hcall
          injection hcall with hcall
          subst hbegan
          refine .inr (.inr ⟨List.getElem?_set_self hlt, ?_⟩)
          cases q with
          | receive r most timeout => exact ⟨r, most, timeout, rfl⟩
          | _ => contradiction
        · exact .inl ((List.getElem?_set_ne hij).trans hi)
      · exact .inl hi
      · exact .inl hi
    · exact .inr (.inl (hkept hi))
    · exact .inr (.inr ⟨hkept hi, hq⟩)

/-- What is asked of a closed receiver is refused, whatever happens besides. -/
theorem Leads.refuses (h : (s.accept q).Leads t) (hr : q.receiver? = some r)
    (ho : q.onceClosed? = some o) (hc : s.broker.isOpen r = false) :
    t.Refuses s.calls.length s.now q o := by
  obtain hi | hi | ⟨hi, hq⟩ := h.entry_of_closed hr ho hc
  · have hclosed : t.broker.isOpen r = false := h.isOpen_eq_false hc
    obtain ⟨hready, hstate, hdone⟩ := Request.step_onceClosed hr ho hclosed t.now
    refine .waits hi ⟨_, after_advance hi hready, ?_, hstate⟩ fun u hm => ?_
    · rw [getElem?_advance hi, hdone]
    · simp only [after, hi] at hm
      split at hm
      · next c hcall =>
        cases hm
        injection hcall with hcall
        injection hcall with _ hcall
        injection hcall with hcall
        exact Request.drop_call hcall t.broker
      · contradiction
  · exact .ended hi
  · exact .dropped hi hq

/-! ## The first close -/

/-- The first close of a receiver has ended so, and what holds then and from then on. -/
structure Closed (s : Traffic) (r : Receiver) (o : Outcome) (t : Traffic) : Prop where
  result : o = .closed (.ok ())
  /-- All that the receiver has locked is given back. -/
  givesBack : GivesBack r s.broker t.broker
  /-- Nothing else has changed, but for what tells so. -/
  frame : t.broker = { s.broker with
    queues := t.broker.queues
    locks := t.broker.locks
    closed := r.id :: s.broker.closed
    closedReceivers := s.broker.closedReceivers + 1
    broadcasts := s.broker.broadcasts + 1 }
  /-- From then on every request on the receiver is refused. -/
  refuses : ∀ u q o, t.Leads u → q.receiver? = some r → q.onceClosed? = some o →
    u.after (.begin q) = some (u.accept q) ∧
      ∀ v, (u.accept q).Leads v → v.Refuses u.calls.length u.now q o
  /-- Every other receiver is open if it was, and holds the locks that it held.  As long as it is
  open and no settlement under the token of a lock succeeds, one that is asked for and finds no
  fault does. -/
  others : ∀ k ∈ s.receivers, k.id ≠ r.id → t.broker.isOpen k = s.broker.isOpen k ∧
    ∀ l ∈ s.broker.locks, l.receiver = k.id → ∀ u, t.Leads u → u.broker.isOpen k = true →
      t.NoneSucceeds u l.token → u.broker.lock? k l.token = some l ∧
        ∀ verdict, Settle.fault? u.broker verdict = none → ∃ v w,
          u.after (.begin (.settle k l.token verdict)) = some v ∧
            Alone u.calls.length (.settled (.ok ())) v w

/-- What the first close of a receiver does, if nothing interrupts it. -/
structure ClosesOnce (s : Traffic) (r : Receiver) : Prop where
  /-- It can be begun, and it ends if nothing else happens. -/
  returns : ∃ t u, s.after (.begin (.close r)) = some t ∧
    Alone s.calls.length (.closed (.ok ())) t u
  /-- It ends so, however the table of locks is rearranged meanwhile. -/
  closed : ∀ t u began o, s.after (.begin (.close r)) = some t →
    Undisturbed s.calls.length t u → u.calls[s.calls.length]? = some ⟨began, .done o⟩ →
      s.Closed r o u

theorem Undisturbed.leads (h : Undisturbed i s t) : s.Leads t := by
  induction h with
  | refl => exact .refl _
  | advance _ hm ih => exact ih.step hm
  | rearrange _ hm ih => exact ih.step hm

/-- **Closing a receiver** that is open gives back exactly what it has locked, and takes nothing
from anybody else. -/
theorem Reachable.closesOnce (hs : s.Reachable) (hr : r ∈ s.receivers)
    (ho : s.broker.isOpen r = true) : s.ClosesOnce r := by
  have hbegin : s.after (.begin (.close r)) = some (s.accept (.close r)) :=
    after_begin_of_mem hr rfl
  have hnew : (s.accept (.close r)).calls[s.calls.length]? =
      some ⟨s.now, .on (.closing ⟨r, .marking⟩)⟩ := List.getElem?_concat_length
  constructor
  case returns =>
    obtain ⟨b', htakes⟩ := takes_close ho s.now
    obtain ⟨u, hu⟩ := alone_of_takes hnew htakes
    exact ⟨_, u, hbegin, hu⟩
  case closed =>
    intro t u began o ht hundisturbed hi
    cases hbegin.symm.trans ht
    obtain ⟨p, hp, hclosing⟩ := closing_of_undisturbed hr hs ho hundisturbed
    cases hi.symm.trans hp
    have hlead : s.Leads u := (Leads.step (.refl s) hbegin).trans hundisturbed.leads
    generalize hb : u.broker = b at hclosing
    cases hclosing with
    | done queues locks hgives =>
      refine ⟨rfl, hb ▸ ?_, ?_, ?_, ?_⟩
      · exact ⟨hgives.locks, hgives.queue, hgives.queues⟩
      · rw [hb]
      · intro v q o' huv hq ho'
        have hclosed : u.broker.isOpen r = false := by rw [hb]; simp [isOpen]
        have hv := huv.isOpen_eq_false hclosed
        exact ⟨after_begin_of_mem ((hlead.trans huv).mem_receivers hr) hq,
          fun w hw => hw.refuses hq ho' hv⟩
      · intro k hk hne
        refine ⟨by rw [hb]; simp [isOpen, hne], fun l hl hid v huv hov hnone => ?_⟩
        have hlu : l ∈ u.broker.locks := by
          rw [hb]
          refine hgives.locks.mem_iff.mpr (List.mem_filter.mpr ⟨hl, ?_⟩)
          simpa [hid] using hne
        have hru : u.Reachable := hs.leads hlead
        have hlv := huv.mem_locks hru hlu hid hov hnone
        have hlock := (hru.leads huv).lock?_of_mem hlv hid
        have hkv := (hlead.trans huv).mem_receivers hk
        exact ⟨hlock, fun verdict hf => settles_of_lock? hkv hlock hov hf⟩

/-- Of three messages one receiver has locked two, and another one the third; a fourth waits. -/
def sharedQueue : List Move := [
  .begin (.createReceiver "orders"), .advance 0, .advance 0,
  .begin (.createReceiver "orders"), .advance 1, .advance 1,
  .begin (.sendBatch "orders" [[1], [2], [3], [4]] {}),
  .advance 2, .advance 2, .advance 2, .advance 2, .advance 2, .advance 2, .advance 2, .advance 2,
  .advance 2,
  .begin (.receive ⟨0, "orders"⟩ 2 .zero), .advance 3, .advance 3, .advance 3, .advance 3,
  .begin (.receive ⟨1, "orders"⟩ 1 .zero), .advance 4, .advance 4, .advance 4, .advance 4]

theorem closesOnce_sharedQueue : ∃ s, run {} sharedQueue = some s ∧
    (s.broker.queue "orders").map (·.serial) = [3] ∧
    s.broker.locks.map (fun l => (l.receiver, l.copy.serial)) = [(0, 0), (0, 1), (1, 2)] ∧
    s.ClosesOnce ⟨0, "orders"⟩ := by
  have hrun : (run {} sharedQueue).any fun s =>
      (s.broker.queue "orders").map (·.serial) = [3] ∧
      s.broker.locks.map (fun l => (l.receiver, l.copy.serial)) = [(0, 0), (0, 1), (1, 2)] ∧
      (⟨0, "orders"⟩ : Receiver) ∈ s.receivers ∧ s.broker.isOpen ⟨0, "orders"⟩ = true := by
    decide
  obtain ⟨s, hs, hp⟩ := (Option.any_eq_true _ _).mp hrun
  obtain ⟨hqueue, hlocks, hr, ho⟩ := of_decide_eq_true hp
  exact ⟨s, hs, hqueue, hlocks, Reachable.closesOnce (reachable_of_run hs) hr ho⟩

end Traffic

end PeekLock.Broker
