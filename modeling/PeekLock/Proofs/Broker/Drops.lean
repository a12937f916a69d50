import PeekLock.Proofs.Broker.Deliveries
import PeekLock.Proofs.Broker.Outstanding

/-!
# PeekLock.Proofs.Broker.Drops

A receive that is dropped has never been.

A receive changes nothing but the counters of receives until the step in
which it ends, and no call reads those counters (`Call.step_uncounted`).
So a run in which a receive is dropped goes as it goes without the steps of
that receive, and comes to the same bus with the same calls
(`eq_of_run_of_dropped`).  What is locked was handed out by a receive that
has ended with its message (`Reachable.handedOut`).
-/

namespace PeekLock

/-! ## Counters aside -/

/-- The bus with its counters of receives at zero. -/
def Broker.uncounted (b : Broker) : Broker :=
  { b with receiveCalls := 0, activeReceives := 0, peakReceives := 0 }

/-- A step without what it does to the counters. -/
def Step.uncounted {κ α : Type} (s : Step Broker κ α) : Step Broker κ α :=
  { s with state := s.state.uncounted }

namespace Broker

section

variable (b : Broker)

@[simp] theorem isOpen_uncounted (r : Receiver) : b.uncounted.isOpen r = b.isOpen r := rfl

@[simp] theorem faults_uncounted : b.uncounted.faults = b.faults := rfl

@[simp] theorem broadcasts_uncounted : b.uncounted.broadcasts = b.broadcasts := rfl

@[simp] theorem fault?_uncounted (v : Verdict) :
    Settle.fault? b.uncounted v = Settle.fault? b v := by
  cases v <;> rfl

@[simp] theorem lock?_uncounted (r : Receiver) (token : LockToken) :
    b.uncounted.lock? r token = b.lock? r token := rfl

@[simp] theorem take_uncounted (r : Receiver) (most : Nat) :
    b.uncounted.take r most = ((b.take r most).1, (b.take r most).2.uncounted) := rfl

@[simp] theorem buildMessage_uncounted (now : Nat) (body : List UInt8) (options : SendOptions) :
    b.uncounted.buildMessage now body options =
      ((b.buildMessage now body options).1, (b.buildMessage now body options).2.uncounted) := by
  unfold buildMessage
  cases options.messageId <;> rfl

@[simp] theorem enqueue_uncounted (target : String) (m : Message) :
    b.uncounted.enqueue target m = (b.enqueue target m).uncounted := by
  have h (entities : List String) :
      entities.foldl (append m) b.uncounted = (entities.foldl (append m) b).uncounted := by
    induction entities generalizing b with
    | nil => rfl
    | cons e rest ih => exact ih (b.append m e)
  exact h (b.destinations target)

@[simp] theorem lapse_uncounted (r : Receiver) : b.uncounted.lapse r = (b.lapse r).uncounted := by
  have h (locks : List Lock) (b : Broker) :
      locks.foldl giveBack b.uncounted = (locks.foldl giveBack b).uncounted := by
    induction locks generalizing b with
    | nil => rfl
    | cons l rest ih => exact ih (b.giveBack l)
  exact congrArg (fun b : Broker => { b with closedReceivers := b.closedReceivers + 1 })
    (h (b.locks.partition (·.receiver = r.id)).1
      { b with locks := (b.locks.partition (·.receiver = r.id)).2 })

theorem Send.step_uncounted (now : Nat) (c : Send) :
    (c.step now b.uncounted).uncounted = (c.step now b).uncounted := by
  cases c with
  | checking target body options =>
    simp only [Send.step, buildMessage_uncounted]
    cases checkTarget target <;> rfl
  | enqueueing target m =>
    simp only [Send.step, enqueue_uncounted]
    rfl
  | announcing target id => rfl

theorem SendBatch.goOn_uncounted (now : Nat) (target : String) (count : Nat) (options : SendOptions)
    (bodies : List (List UInt8)) :
    (goOn now b.uncounted target count options bodies).uncounted =
      (goOn now b target count options bodies).uncounted := by
  cases bodies with
  | nil => rfl
  | cons body rest =>
    simp only [goOn, buildMessage_uncounted]
    rfl

theorem SendBatch.step_uncounted (now : Nat) (c : SendBatch) :
    (c.step now b.uncounted).uncounted = (c.step now b).uncounted := by
  cases c with
  | checking target bodies options =>
    simp only [SendBatch.step]
    cases checkTarget target with
    | error e => rfl
    | ok _ => exact goOn_uncounted b now target _ options bodies
  | enqueueing target count m rest options =>
    simp only [SendBatch.step, enqueue_uncounted]
    rfl
  | announcing target count rest options =>
    exact goOn_uncounted b.broadcast now target count options rest

theorem Open.step_uncounted (c : Open) :
    (c.step b.uncounted).uncounted = (c.step b).uncounted := by
  cases c with
  | checking entity =>
    simp only [Open.step, faults_uncounted]
    cases EntityPath.parse entity with
    | error e => rfl
    | ok path =>
      cases h : b.faults.rejected.contains path.text <;>
        simp only [h, Bool.false_eq_true, if_true, if_false] <;> rfl
  | registering path => rfl

theorem Receive.step_uncounted (now : Nat) (c : Receive) :
    (c.step now b.uncounted).uncounted = (c.step now b).uncounted := by
  obtain ⟨r, most, timeout, point⟩ := c
  cases point with
  | arriving | checking =>
    cases h : b.isOpen r <;>
      simp only [Receive.step, isOpen_uncounted, h, Bool.false_eq_true, if_true, if_false] <;> rfl
  | readingFaults =>
    simp only [Receive.step, faults_uncounted]
    cases b.faults.receiveError with
    | some e => rfl
    | none =>
      cases b.faults.timeouts with
      | succ n => rfl
      | zero => cases b.faults.latency <;> rfl
  | delayed due => rfl
  | looking deadline seen =>
    cases h : (b.take r most).1.isEmpty <;>
      simp only [Receive.step, take_uncounted, h, Bool.false_eq_true, if_true, if_false] <;> rfl
  | parked deadline seen =>
    by_cases h : b.broadcasts = seen <;>
      simp only [Receive.step, broadcasts_uncounted, h, ne_eq, not_true, not_false_iff, if_true,
        if_false] <;> rfl

theorem Settle.step_uncounted (c : Settle) :
    (c.step b.uncounted).uncounted = (c.step b).uncounted := by
  obtain ⟨r, token, verdict, point⟩ := c
  cases point with
  | readingFault =>
    cases h : b.isOpen r <;>
      simp only [Settle.step, isOpen_uncounted, fault?_uncounted, h, Bool.false_eq_true, if_true,
        if_false]
    · rfl
    · cases fault? b verdict <;> rfl
  | releasing =>
    simp only [Settle.step, lock?_uncounted]
    cases b.lock? r token <;> rfl
  | recording l => cases verdict <;> rfl
  | announcing => rfl

theorem Close.step_uncounted (c : Close) :
    (c.step b.uncounted).uncounted = (c.step b).uncounted := by
  obtain ⟨r, point⟩ := c
  cases point with
  | marking =>
    cases h : b.isOpen r <;>
      simp only [Close.step, isOpen_uncounted, h, Bool.false_eq_true, if_true, if_false] <;> rfl
  | lapsing =>
    simp only [Close.step, lapse_uncounted]
    rfl
  | announcing => rfl

/-- No call reads the counters. -/
theorem Call.step_uncounted (now : Nat) (c : Call) :
    (c.step now b.uncounted).uncounted = (c.step now b).uncounted := by
  cases c with
  | sending c => exact congrArg (Step.map _ _) (c.step_uncounted b now)
  | sendingBatch c => exact congrArg (Step.map _ _) (c.step_uncounted b now)
  | opening c => exact congrArg (Step.map _ _) (c.step_uncounted b)
  | receiving c => exact congrArg (Step.map _ _) (c.step_uncounted b now)
  | settling c => exact congrArg (Step.map _ _) (c.step_uncounted b)
  | closing c => exact congrArg (Step.map _ _) (c.step_uncounted b)
  | subscribing topic name => rfl
  | arranging faults => rfl

theorem Call.isReady_uncounted (now : Nat) (c : Call) :
    c.isReady now b.uncounted = c.isReady now b := by
  cases c <;> rfl

theorem Call.transfer_uncounted (c : Call) : c.transfer b.uncounted = c.transfer b := by
  unfold Call.transfer
  split <;> rfl

theorem Transfer.arrivals_uncounted (t : Transfer) : t.arrivals b.uncounted = t.arrivals b := by
  cases t <;> rfl

theorem Transfer.placements_uncounted (t : Transfer) :
    t.placements b.uncounted = t.placements b := by
  cases t <;> rfl

theorem Receive.drop_uncounted (c : Receive) : (c.drop b).uncounted = b.uncounted := by
  unfold Receive.drop
  split <;> rfl

end

/-! ## A receive that has not begun -/

/-- A receive on its way is put back to where it has not begun. -/
def Entry.unbegun : Entry → Entry
  | ⟨began, .on (.receiving c)⟩ => ⟨began, .on (.receiving { c with point := .arriving })⟩
  | x => x

/-- A call is a receive on its way, or one that was dropped. -/
inductive Entry.MayBeDropped : Entry → Prop where
  | on (began : Nat) (c : Receive) : MayBeDropped ⟨began, .on (.receiving c)⟩
  | dropped (began : Nat) : MayBeDropped ⟨began, .done .dropped⟩

theorem Entry.created?_unbegun (x : Entry) : x.unbegun.created? = x.created? := by
  unfold unbegun
  split <;> rfl

theorem Request.unbegun_call (q : Request) (began : Nat) :
    Entry.unbegun ⟨began, .on q.call⟩ = ⟨began, .on q.call⟩ := by
  cases q <;> rfl

/-- A receive that goes on is still the same one, and has changed nothing but the counters. -/
theorem Receive.same_of_step {now : Nat} {b : Broker} {c c' : Receive}
    (h : (c.step now b).progress = .on c') :
    { c' with point := .arriving } = { c with point := .arriving } ∧
      (c.step now b).state.uncounted = b.uncounted := by
  obtain ⟨r, most, timeout, point⟩ := c
  cases point with
  | delayed due =>
    cases h
    exact ⟨rfl, rfl⟩
  | readingFaults =>
    simp only [Receive.step] at h ⊢
    cases hE : b.faults.receiveError with
    | some e => simp only [hE] at h; cases h
    | none =>
      cases hT : b.faults.timeouts with
      | succ n => simp only [hE, hT] at h; cases h
      | zero =>
        cases hL : b.faults.latency <;> simp only [hE, hT, hL] at h ⊢ <;> cases h <;>
          exact ⟨rfl, rfl⟩
  | looking deadline seen =>
    simp only [Receive.step] at h ⊢
    cases ht : (b.take r most).1.isEmpty <;>
      simp only [ht, Bool.false_eq_true, if_true, if_false] at h ⊢ <;> cases h
    exact ⟨rfl, rfl⟩
  | parked deadline seen =>
    simp only [Receive.step] at h ⊢
    by_cases hb : b.broadcasts = seen <;>
      simp only [hb, ne_eq, not_true, not_false_iff, if_true, if_false] at h ⊢ <;> cases h
    exact ⟨rfl, rfl⟩
  | _ =>
    simp only [Receive.step] at h ⊢
    cases ho : b.isOpen r <;>
      simp only [ho, Bool.false_eq_true, if_true, if_false] at h ⊢ <;> cases h
    exact ⟨rfl, rfl⟩

/-- A receive makes no copies, and puts none into a queue. -/
theorem Receive.transfer_places_nothing (b : Broker) (c : Receive) :
    ((Call.receiving c).transfer b).arrivals b = [] ∧
      ((Call.receiving c).transfer b).placements b = [] := by
  obtain ⟨r, most, timeout, point⟩ := c
  cases point <;> exact ⟨rfl, rfl⟩

/-- A step that leaves a call on its way as a receive is one of that receive. -/
theorem Call.receiving_of_mayBeDropped {now began : Nat} {b : Broker} {c : Call}
    (h : Entry.MayBeDropped ⟨began, (c.step now b).progress⟩) :
    ∃ k k', c = .receiving k ∧ (k.step now b).progress = .on k' := by
  generalize hp : (c.step now b).progress = p at h
  cases h with
  | on _ k' =>
    obtain ⟨k, rfl, hk⟩ := Traffic.receiving_of_step hp
    exact ⟨k, k', rfl, hk⟩
  | dropped =>
    cases c with
    | subscribing topic name => cases hp
    | arranging faults => cases hp
    | _ =>
      obtain ⟨_, -, ho⟩ := Progress.map_eq_done hp
      cases ho

namespace Traffic

variable {s t u : Traffic} {i : Nat} {m : Move} {supply : Identifier.Supply} {moves : List Move}

/-- Whether a move is a step of the call of that number. -/
def advances (i : Nat) : Move → Bool
  | .advance j => j = i
  | _ => false

/-- A traffic is another one but for this: the receive of that number has not begun, and the
counters of receives say what they like. -/
structure AsIfUnbegun (i : Nat) (s t : Traffic) : Prop where
  now : t.now = s.now
  broker : t.broker.uncounted = s.broker.uncounted
  length : t.calls.length = s.calls.length
  own : t.calls[i]? = s.calls[i]?.map Entry.unbegun
  others : ∀ j, i ≠ j → t.calls[j]? = s.calls[j]?
  arrivals : t.arrivals = s.arrivals
  placements : t.placements = s.placements

namespace AsIfUnbegun

theorem mem_receivers (h : AsIfUnbegun i s t) {r : Receiver} (hr : r ∈ s.receivers) :
    r ∈ t.receivers := by
  obtain ⟨x, hx, hc⟩ := List.mem_filterMap.mp hr
  obtain ⟨j, hj⟩ := List.mem_iff_getElem?.mp hx
  by_cases hij : i = j
  · subst hij
    refine List.mem_filterMap.mpr ⟨x.unbegun, List.mem_of_getElem? (i := i) ?_, ?_⟩
    · rw [h.own, hj, Option.map_some]
    · rw [x.created?_unbegun, hc]
  · exact List.mem_filterMap.mpr
      ⟨x, List.mem_of_getElem? ((h.others j hij).trans hj), hc⟩

theorem accept (h : AsIfUnbegun i s t) (q : Request) :
    AsIfUnbegun i (s.accept q) (t.accept q) where
  now := h.now
  broker := h.broker
  length := by simp only [Traffic.accept, List.length_append, List.length_singleton, h.length]
  own := by
    simp only [Traffic.accept, List.getElem?_append, h.length, h.now]
    split
    · exact h.own
    · rw [List.getElem?_singleton]
      split
      · rw [Option.map_some, q.unbegun_call]
      · rfl
  others j hij := by
    simp only [Traffic.accept, List.getElem?_append, h.length, h.now]
    split
    · exact h.others j hij
    · rfl
  arrivals := h.arrivals
  placements := h.placements

/-- The call of that number goes on as a receive. -/
theorem own_advance (h : AsIfUnbegun i s t) {began : Nat} {c c' : Receive}
    (hi : s.calls[i]? = some ⟨began, .on (.receiving c)⟩)
    (hp : (c.step s.now s.broker).progress = .on c') :
    AsIfUnbegun i (s.advance i began (.receiving c)) t := by
  obtain ⟨hsame, hb⟩ := Receive.same_of_step hp
  have hstep : ((Call.receiving c).step s.now s.broker).progress = .on (.receiving c') :=
    congrArg (Progress.map _ _) hp
  obtain ⟨harrivals, hplacements⟩ := c.transfer_places_nothing s.broker
  refine ⟨h.now, h.broker.trans hb.symm, ?_, ?_, fun j hij => ?_, ?_, ?_⟩
  · rw [h.length, Traffic.advance, List.length_set]
  · rw [h.own, hi, getElem?_advance hi, hstep, Option.map_some, Option.map_some]
    simp only [Entry.unbegun, hsame]
  · rw [h.others j hij, getElem?_advance_ne hij]
  · rw [h.arrivals, Traffic.advance, harrivals, List.map_nil, List.append_nil]
  · rw [h.placements, Traffic.advance, hplacements, List.map_nil, List.nil_append]

/-- Another call goes on. -/
theorem other_advance (h : AsIfUnbegun i s t) {j began : Nat} {c : Call} (hij : i ≠ j) :
    AsIfUnbegun i (s.advance j began c) (t.advance j began c) := by
  have hstep : (c.step t.now t.broker).uncounted = (c.step s.now s.broker).uncounted := by
    rw [← c.step_uncounted, h.broker, h.now, c.step_uncounted]
  have hprogress : (c.step t.now t.broker).progress = (c.step s.now s.broker).progress := by
    have h := congrArg Step.progress hstep
    exact h
  have htransfer : c.transfer t.broker = c.transfer s.broker := by
    rw [← c.transfer_uncounted, h.broker, c.transfer_uncounted]
  constructor
  case now => exact h.now
  case broker => exact congrArg (fun r : Step Broker Call Outcome => r.state) hstep
  case length => simp only [Traffic.advance, List.length_set, h.length]
  case own =>
    rw [getElem?_advance_ne (Ne.symm hij), getElem?_advance_ne (Ne.symm hij), h.own]
  case others =>
    intro k hik
    simp only [Traffic.advance, List.getElem?_set, h.length, hprogress, h.others k hik]
  case arrivals =>
    simp only [Traffic.advance, h.arrivals, htransfer]
    rw [← Transfer.arrivals_uncounted, h.broker, Transfer.arrivals_uncounted]
  case placements =>
    simp only [Traffic.advance, h.placements, htransfer]
    rw [← Transfer.placements_uncounted, h.broker, Transfer.placements_uncounted]

/-- A receive is dropped, be it that one or another. -/
theorem dropReceive (h : AsIfUnbegun i s t) (j began : Nat) (c c' : Receive) :
    AsIfUnbegun i (s.dropReceive j began c) (t.dropReceive j began c') where
  now := h.now
  broker := by
    rw [Traffic.dropReceive, Traffic.dropReceive, c.drop_uncounted, c'.drop_uncounted, h.broker]
  length := by simp only [Traffic.dropReceive, List.length_set, h.length]
  own := by
    simp only [Traffic.dropReceive, List.getElem?_set, h.length, h.own]
    split
    · split <;> rfl
    · rfl
  others k hik := by
    simp only [Traffic.dropReceive, List.getElem?_set, h.length, h.others k hik]
  arrivals := h.arrivals
  placements := h.placements

/-- A move that is a step of the receive changes nothing without it, and any other move does
without it what it does. -/
theorem after (h : AsIfUnbegun i s t) (hm : s.after m = some u)
    (hd : ∀ x, u.calls[i]? = some x → x.MayBeDropped) :
    (advances i m = true ∧ AsIfUnbegun i u t) ∨
      (advances i m = false ∧ ∃ v, t.after m = some v ∧ AsIfUnbegun i u v) := by
  obtain ⟨q, rfl, hq, rfl⟩ | ⟨j, began, c, rfl, hj, hr, rfl⟩ | ⟨j, began, c, rfl, hj, rfl⟩ |
    ⟨ms, rfl, rfl⟩ | ⟨locks, rfl, hlocks, rfl⟩ := after_cases hm
  · refine .inr ⟨rfl, _, ?_, h.accept q⟩
    rw [Traffic.after, if_pos]
    rw [Option.all_eq_true]
    exact fun r hr => decide_eq_true (h.mem_receivers (hq r hr))
  · by_cases hij : i = j
    · subst hij
      obtain ⟨k, k', rfl, hp⟩ := Call.receiving_of_mayBeDropped (hd _ (getElem?_advance hj))
      exact .inl ⟨decide_eq_true rfl, h.own_advance hj hp⟩
    · refine .inr ⟨decide_eq_false (Ne.symm hij), _, after_advance ?_ ?_, h.other_advance hij⟩
      · rw [h.others j hij, hj]
      · rw [h.now, ← c.isReady_uncounted, h.broker, c.isReady_uncounted, hr]
  · refine .inr ⟨rfl, ?_⟩
    by_cases hij : i = j
    · subst hij
      refine ⟨_, ?_, h.dropReceive i began c { c with point := .arriving }⟩
      simp only [Traffic.after, h.own, hj, Option.map_some, Entry.unbegun]
    · refine ⟨_, ?_, h.dropReceive j began c c⟩
      simp only [Traffic.after, h.others j hij, hj]
  · refine .inr ⟨rfl, _, rfl, ?_⟩
    exact ⟨congrArg (· + ms) h.now, h.broker, h.length, h.own, h.others, h.arrivals, h.placements⟩
  · have hsame : t.broker.locks = s.broker.locks := by
      have hlocks := congrArg Broker.locks h.broker
      exact hlocks
    refine .inr ⟨rfl, t.rearrange locks, ?_, ?_⟩
    · rw [Traffic.after, if_pos (List.isPerm_iff.mpr (hsame ▸ hlocks))]
    · refine ⟨h.now, ?_, h.length, h.own, h.others, h.arrivals, h.placements⟩
      exact congrArg (fun b : Broker => { b with locks := locks }) h.broker

end AsIfUnbegun

/-- What may be a receive that was dropped was none before it was begun, or might have been one
before. -/
theorem mayBeDropped_of_after (hm : s.after m = some t)
    (hd : ∀ x, t.calls[i]? = some x → x.MayBeDropped) :
    ∀ x, s.calls[i]? = some x → x.MayBeDropped := by
  intro x hi
  obtain ⟨hlt, -⟩ := List.getElem?_eq_some_iff.mp hi
  obtain ⟨q, -, -, rfl⟩ | ⟨j, began, c, -, hj, -, rfl⟩ | ⟨j, began, c, -, hj, rfl⟩ |
    ⟨ms, -, rfl⟩ | ⟨locks, -, -, rfl⟩ := after_cases hm
  · exact hd x ((List.getElem?_append_left hlt).trans hi)
  · by_cases hij : j = i
    · subst hij
      obtain ⟨k, k', rfl, -⟩ := Call.receiving_of_mayBeDropped (hd _ (getElem?_advance hj))
      cases hi.symm.trans hj
      exact .on began k
    · exact hd x ((getElem?_advance_ne hij).trans hi)
  · by_cases hij : j = i
    · subst hij
      cases hi.symm.trans hj
      exact .on began c
    · exact hd x ((List.getElem?_set_ne hij).trans hi)
  · exact hd x hi
  · exact hd x hi

/-- Without the steps of a receive that does not end by itself a run goes as it goes. -/
theorem asIfUnbegun_of_run (h : run (start supply) moves = some s)
    (hd : ∀ x, s.calls[i]? = some x → x.MayBeDropped) :
    ∃ t, run (start supply) (moves.filter (!advances i ·)) = some t ∧ AsIfUnbegun i s t := by
  induction moves using List.reverseRecOn generalizing s with
  | nil =>
    cases h
    exact ⟨start supply, rfl, rfl, rfl, rfl, rfl, fun _ _ => rfl, rfl, rfl⟩
  | append_singleton moves m ih =>
    obtain ⟨u, hu, hm⟩ := foldlM_concat.mp h
    obtain ⟨t, ht, hut⟩ := ih hu (mayBeDropped_of_after hm hd)
    rw [List.filter_append]
    obtain ⟨ha, hst⟩ | ⟨ha, v, hv, hsv⟩ := hut.after hm hd
    · rw [List.filter_singleton, ha, Bool.not_true, cond_false, List.append_nil]
      exact ⟨t, ht, hst⟩
    · rw [List.filter_singleton, ha, Bool.not_false, cond_true]
      exact ⟨v, foldlM_concat.mpr ⟨t, ht, hv⟩, hsv⟩

/-- **A dropped receive has never been**: without its steps the run goes as it goes, and comes to
the same, but for how many receives were counted and how many went on at most. -/
theorem eq_of_run_of_dropped {began : Nat} (h : run (start supply) moves = some s)
    (hi : s.calls[i]? = some ⟨began, .done .dropped⟩) :
    ∃ t, run (start supply) (moves.filter (!advances i ·)) = some t ∧
      s = { t with broker := { t.broker with
        receiveCalls := s.broker.receiveCalls, peakReceives := s.broker.peakReceives } } := by
  have hd : ∀ x, s.calls[i]? = some x → x.MayBeDropped := by
    intro x hx
    cases hi.symm.trans hx
    exact .dropped began
  obtain ⟨t, ht, hst⟩ := asIfUnbegun_of_run h hd
  have hcalls : t.calls = s.calls := by
    refine List.ext_getElem? fun j => ?_
    by_cases hij : i = j
    · subst hij
      rw [hst.own, hi]
      rfl
    · exact hst.others j hij
  have hactive : t.broker.activeReceives = s.broker.activeReceives := by
    rw [(reachable_of_run ht).gauged.active, (reachable_of_run h).gauged.active, outstanding,
      outstanding, hcalls]
  refine ⟨t, ht, ?_⟩
  obtain ⟨now, b, calls, arrivals, placements⟩ := s
  obtain ⟨now', b', calls', arrivals', placements'⟩ := t
  have hbroker := hst.broker
  have hnow := hst.now
  have harrivals := hst.arrivals
  have hplacements := hst.placements
  dsimp only at hcalls hactive hnow harrivals hplacements hbroker
  subst hnow hcalls harrivals hplacements
  congr 1
  cases b
  cases b'
  simp only [uncounted, Broker.mk.injEq] at hbroker hactive ⊢
  simp only [hbroker, hactive, and_self]

/-! ## Locks and batches -/

/-- A lock was handed out by a receive of its receiver, which has ended with the message. -/
def HandedOut (s : Traffic) (l : Lock) : Prop :=
  ∃ (u : Traffic) (j began : Nat) (c : Receive) (messages : List Message), u.Leads s ∧
    u.calls[j]? = some ⟨began, .on (.receiving c)⟩ ∧ c.receiver = ⟨l.receiver, l.entity⟩ ∧
    s.calls[j]? = some ⟨began, .done (.received (.ok messages))⟩ ∧ l.copy.message ∈ messages

theorem HandedOut.after {l : Lock} (h : s.HandedOut l) (hm : s.after m = some t) :
    t.HandedOut l := by
  obtain ⟨u, j, began, c, messages, hu, hj, hc, hdone, hmem⟩ := h
  exact ⟨u, j, began, c, messages, hu.step hm, hj, hc,
    (Leads.step (.refl s) hm).getElem?_done hdone, hmem⟩

/-- **Every lock was handed out** by a receive that has ended with its message. -/
theorem Reachable.handedOut (h : s.Reachable) : ∀ l ∈ s.broker.locks, s.HandedOut l := by
  obtain ⟨supply, h⟩ := h
  induction h with
  | refl => exact nofun
  | @step u v m hu hm ih =>
    intro l hl
    obtain ⟨i, began, c, rfl, hi, rfl⟩ | ⟨hrests, -⟩ := advances_or_rests hm
    · obtain hold | hnew := Transfer.mem_locks_or_deliveries
        ((c.step_keepsCopies u.now u.broker).locks.mem_iff.mp hl)
      · exact (ih l hold).after hm
      · cases ht : c.transfer u.broker with
        | take r most =>
          have hne : (c.transfer u.broker).deliveries u.broker ≠ [] := List.ne_nil_of_mem hnew
          obtain ⟨k, rfl, hp⟩ := progress_of_take ht hne
          obtain ⟨timeout, deadline, seen, hk⟩ := Call.looking_of_take ht
          cases hk
          have hmem := List.mem_map_of_mem (f := fun l : Lock => l.copy.message) hnew
          rw [ht] at hnew
          obtain ⟨hid, hentity, -⟩ := mem_lockAll hnew
          refine ⟨u, i, began, _, _, .step (.refl u) hm, hi, ?_, hp ▸ getElem?_advance hi, hmem⟩
          rw [hid, hentity]
        | _ => rw [ht] at hnew; contradiction
    · exact (ih l (hrests.broker.locks.mem_iff.mp hl)).after hm

/-- What becomes of a receive that is dropped, after some moves. -/
structure DropsNothing (supply : Identifier.Supply) (moves : List Move) (s : Traffic) : Prop where
  /-- A receive can be dropped wherever it is suspended.  That changes nothing but the number of
  active receives, which is that of all others then. -/
  dropped : ∀ i began c, s.calls[i]? = some ⟨began, .on (.receiving c)⟩ → ∃ t,
    s.after (.drop i) = some t ∧ t.calls = s.calls.set i ⟨began, .done .dropped⟩ ∧
      t.broker = { s.broker with activeReceives := t.broker.activeReceives } ∧
        t.broker.activeReceives = t.outstanding
  /-- A step after which a receive is still on its way changes nothing but the counters. -/
  goesOn : ∀ i began c c' t, s.calls[i]? = some ⟨began, .on (.receiving c)⟩ →
    s.after (.advance i) = some t → t.calls[i]? = some ⟨began, .on (.receiving c')⟩ →
      t.broker.uncounted = s.broker.uncounted
  /-- Without the steps of a receive that was dropped all is as it is with them, but for how many
  receives were counted and how many went on at most. -/
  erased : ∀ i began, s.calls[i]? = some ⟨began, .done .dropped⟩ →
    ∃ t, run (start supply) (moves.filter (!advances i ·)) = some t ∧
      s = { t with broker := { t.broker with
        receiveCalls := s.broker.receiveCalls, peakReceives := s.broker.peakReceives } }
  /-- What is locked was handed out by a receive that has ended with it. -/
  handedOut : ∀ l ∈ s.broker.locks, s.HandedOut l

theorem dropsNothing (h : run (start supply) moves = some s) : s.DropsNothing supply moves where
  dropped i began c hi := by
    have hm : s.after (.drop i) = some (s.dropReceive i began c) := by
      simp only [Traffic.after, hi]
    have ht : Reachable (s.dropReceive i began c) := (reachable_of_run h).step hm
    refine ⟨_, hm, rfl, ?_, ht.gauged.active⟩
    simp only [dropReceive, Receive.drop]
    split <;> rfl
  goesOn i began c c' t hi hm ht := by
    obtain ⟨-, rfl⟩ := eq_advance hi hm
    rw [getElem?_advance hi] at ht
    injection ht with ht
    injection ht with _ hp
    obtain ⟨k, hk, hp⟩ := receiving_of_step hp
    cases hk
    exact (Receive.same_of_step hp).2
  erased i began hi := eq_of_run_of_dropped h hi
  handedOut := (reachable_of_run h).handedOut

end Traffic

end Broker

end PeekLock
