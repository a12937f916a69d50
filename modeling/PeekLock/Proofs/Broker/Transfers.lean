import PeekLock.Proofs.Broker.Sections

/-!
# PeekLock.Proofs.Broker.Transfers

What one step of a call does to the copies, said once for all calls.

`Call.transfer` names what the next step of a call does to the copies.
`step_keepsCopies` says that this is all it does: beyond the transfer the
step moves no copy.  Statements about copies are therefore proved for the
seven transfers, and the calls with their many points are not looked at
again.
-/

namespace PeekLock.Broker

/-- From one state of the bus to another no copy is moved, and no identifier is
taken back.  The table of locks may be rearranged. -/
structure KeepsCopies (before after : Broker) : Prop where
  queue : ∀ e, after.queue e = before.queue e
  locks : after.locks.Perm before.locks
  completed : after.completed = before.completed
  abandoned : after.abandoned = before.abandoned
  copies : after.copies = before.copies
  supply : after.supply = before.supply
  issued : before.issued ≤ after.issued

namespace KeepsCopies

theorem refl (b : Broker) : KeepsCopies b b :=
  ⟨fun _ => rfl, .rfl, rfl, rfl, rfl, rfl, Nat.le_refl _⟩

theorem broadcast (b : Broker) : KeepsCopies b b.broadcast :=
  ⟨fun _ => rfl, .rfl, rfl, rfl, rfl, rfl, Nat.le_refl _⟩

theorem leaveReceive (b : Broker) : KeepsCopies b b.leaveReceive :=
  ⟨fun _ => rfl, .rfl, rfl, rfl, rfl, rfl, Nat.le_refl _⟩

theorem addEntity (b : Broker) (entity : String) : KeepsCopies b (b.addEntity entity) := by
  refine ⟨fun e => ?_, .rfl, rfl, rfl, rfl, rfl, Nat.le_refl _⟩
  simp only [Broker.addEntity, Broker.queue, Table.getD_put]
  split
  · next h => rw [h]
  · rfl

theorem createSubscription (b : Broker) (topic name : String) :
    KeepsCopies b (b.createSubscription topic name) := by
  have h := addEntity b (EntityPath.subscription topic name).text
  exact ⟨h.queue, .rfl, rfl, rfl, rfl, rfl, Nat.le_refl _⟩

theorem buildMessage (b : Broker) (now : Nat) (body : List UInt8) (options : SendOptions) :
    KeepsCopies b (b.buildMessage now body options).2 := by
  unfold Broker.buildMessage
  dsimp only
  split
  · exact refl b
  · exact ⟨fun _ => rfl, .rfl, rfl, rfl, rfl, rfl, Nat.le_succ _⟩

theorem trans {a b c : Broker} (h : KeepsCopies a b) (k : KeepsCopies b c) : KeepsCopies a c :=
  ⟨fun e => (k.queue e).trans (h.queue e), k.locks.trans h.locks, k.completed.trans h.completed,
    k.abandoned.trans h.abandoned, k.copies.trans h.copies, k.supply.trans h.supply,
    Nat.le_trans h.issued k.issued⟩

end KeepsCopies

/-! ## The calls one by one -/

theorem Send.step_keepsCopies (now : Nat) (b : Broker) (c : Send) :
    KeepsCopies (((Call.sending c).transfer b).apply b) (c.step now b).state := by
  cases c with
  | checking target body options =>
    simp only [Send.step, Call.transfer, Transfer.apply]
    split
    · exact .refl b
    · exact .buildMessage b now body options
  | enqueueing target m => exact .refl _
  | announcing target id => exact .broadcast b

theorem SendBatch.goOn_keepsCopies (now : Nat) (b : Broker) (target : String) (count : Nat)
    (options : SendOptions) (bodies : List (List UInt8)) :
    KeepsCopies b (SendBatch.goOn now b target count options bodies).state := by
  cases bodies with
  | nil => exact .refl b
  | cons body rest => exact .buildMessage b now body options

theorem SendBatch.step_keepsCopies (now : Nat) (b : Broker) (c : SendBatch) :
    KeepsCopies (((Call.sendingBatch c).transfer b).apply b) (c.step now b).state := by
  cases c with
  | checking target bodies options =>
    simp only [SendBatch.step, Call.transfer, Transfer.apply]
    split
    · exact .refl b
    · exact goOn_keepsCopies now b target _ options bodies
  | enqueueing target count m rest options => exact .refl _
  | announcing target count rest options =>
    exact (KeepsCopies.broadcast b).trans
      (goOn_keepsCopies now b.broadcast target count options rest)

theorem Open.step_keepsCopies (b : Broker) (c : Open) : KeepsCopies b (c.step b).state := by
  cases c with
  | checking entity =>
    simp only [Open.step]
    split
    · exact .refl b
    · split <;> exact .refl b
  | registering path =>
    have h := KeepsCopies.addEntity b path
    exact ⟨h.queue, .rfl, rfl, rfl, rfl, rfl, Nat.le_refl _⟩

/-- Where nothing is found, nothing is to be had. -/
theorem take_queue_of_isEmpty {b : Broker} {r : Receiver} {most : Nat}
    (h : (b.take r most).1.isEmpty) : (b.queue r.entity).take most = [] := by
  apply List.eq_nil_of_length_eq_zero
  rw [← length_lockAll b.supply r b.issued]
  simpa [take] using h

/-- A receive that finds nothing has moved nothing. -/
theorem take_keepsCopies_of_isEmpty {b : Broker} {r : Receiver} {most : Nat}
    (h : (b.take r most).1.isEmpty) : KeepsCopies (b.take r most).2 b := by
  have hl := take_queue_of_isEmpty h
  refine ⟨fun e => ?_, ?_, rfl, rfl, rfl, rfl, ?_⟩
  · rw [queue_take]
    split
    · next he =>
      subst he
      calc
        b.queue r.entity = (b.queue r.entity).take most ++ (b.queue r.entity).drop most :=
          (List.take_append_drop most _).symm
        _ = (b.queue r.entity).drop most := by rw [hl, List.nil_append]
    · rfl
  · rw [locks_take, hl, lockAll, List.append_nil]
  · simp [take, hl, lockAll]

theorem Receive.step_keepsCopies (now : Nat) (b : Broker) (c : Receive) :
    KeepsCopies (((Call.receiving c).transfer b).apply b) (c.step now b).state := by
  obtain ⟨r, most, timeout, point⟩ := c
  cases point with
  | arriving =>
    simp only [Receive.step, Call.transfer, Transfer.apply]
    split
    · exact ⟨fun _ => rfl, .rfl, rfl, rfl, rfl, rfl, Nat.le_refl _⟩
    · exact .refl b
  | readingFaults =>
    simp only [Receive.step, Call.transfer, Transfer.apply]
    split
    · exact .leaveReceive b
    · exact ⟨fun _ => rfl, .rfl, rfl, rfl, rfl, rfl, Nat.le_refl _⟩
    · exact .refl b
    · exact .refl b
  | delayed due => exact .refl b
  | checking deadline seen =>
    simp only [Receive.step, Call.transfer, Transfer.apply]
    split
    · exact .refl b
    · exact .leaveReceive b
  | looking deadline seen =>
    simp only [Receive.step, Call.transfer, Transfer.apply]
    split
    · next h => exact take_keepsCopies_of_isEmpty h
    · exact .leaveReceive _
  | parked deadline seen =>
    simp only [Receive.step, Call.transfer, Transfer.apply]
    split
    · exact .refl b
    · exact .leaveReceive b

theorem Settle.step_keepsCopies (b : Broker) (c : Settle) :
    KeepsCopies (((Call.settling c).transfer b).apply b) (c.step b).state := by
  obtain ⟨r, token, verdict, point⟩ := c
  cases point with
  | readingFault =>
    simp only [Settle.step, Call.transfer, Transfer.apply]
    split
    · split <;> exact .refl b
    · exact .refl b
  | releasing =>
    simp only [Settle.step, Call.transfer]
    cases hl : b.lock? r token with
    | none => exact .refl b
    | some l =>
      have ht : l.token = token := (mem_of_lock? hl).2.1
      simp only [Option.elim_some, Transfer.apply, ht]
      exact .refl _
  | recording l => cases verdict <;> exact .refl _
  | announcing => exact .broadcast b

theorem Close.step_keepsCopies (b : Broker) (c : Close) :
    KeepsCopies (((Call.closing c).transfer b).apply b) (c.step b).state := by
  obtain ⟨r, point⟩ := c
  cases point with
  | marking =>
    simp only [Close.step, Call.transfer, Transfer.apply]
    split
    · exact ⟨fun _ => rfl, .rfl, rfl, rfl, rfl, rfl, Nat.le_refl _⟩
    · exact .refl b
  | lapsing => exact .refl _
  | announcing => exact .broadcast b

namespace Call

/-- **The copies**: a step of a call carries out its transfer, and beyond that
it moves no copy. -/
theorem step_keepsCopies (now : Nat) (b : Broker) (c : Call) :
    KeepsCopies ((c.transfer b).apply b) (c.step now b).state := by
  cases c with
  | sending c => exact c.step_keepsCopies now b
  | sendingBatch c => exact c.step_keepsCopies now b
  | opening c => exact c.step_keepsCopies b
  | receiving c => exact c.step_keepsCopies now b
  | settling c => exact c.step_keepsCopies b
  | closing c => exact c.step_keepsCopies b
  | subscribing topic name => exact .createSubscription b topic name
  | arranging faults => exact ⟨fun _ => rfl, .rfl, rfl, rfl, rfl, rfl, Nat.le_refl _⟩

end Call

/-- Dropping a receive moves no copy. -/
theorem Receive.drop_keepsCopies (b : Broker) (c : Receive) : KeepsCopies b (c.drop b) := by
  unfold Receive.drop
  split
  · exact .refl b
  · exact .leaveReceive b

/-! ## The hands of the calls -/

namespace Transfer

/-- The lock that a transfer puts into the hands of its call. -/
def takesUp? : Transfer → Option Lock
  | .release l => some l
  | _ => none

/-- The lock that a transfer takes out of the hands of its call. -/
def putsDown? : Transfer → Option Lock
  | .completion l => some l
  | .restoration l => some l
  | _ => none

/-- The lock whose copy a transfer puts back into its queue. -/
def restores? : Transfer → Option Lock
  | .restoration l => some l
  | _ => none

/-- The lock whose copy a transfer is the end of. -/
def finishes? : Transfer → Option Lock
  | .completion l => some l
  | _ => none

theorem putsDown?_of_restores? {t : Transfer} {l : Lock} (h : t.restores? = some l) :
    t.putsDown? = some l := by
  cases t with
  | restoration k => exact h
  | _ => contradiction

theorem putsDown?_of_finishes? {t : Transfer} {l : Lock} (h : t.finishes? = some l) :
    t.putsDown? = some l := by
  cases t with
  | completion k => exact h
  | _ => contradiction

end Transfer

/-- A lock that is released was there. -/
theorem Call.mem_locks_of_release {b : Broker} {c : Call} {l : Lock}
    (h : c.transfer b = .release l) : l ∈ b.locks := by
  unfold Call.transfer at h
  split at h
  case h_4 r token _ =>
    cases hl : b.lock? r token with
    | none => rw [hl] at h; contradiction
    | some k =>
      rw [hl] at h
      injection h with h
      subst h
      exact (mem_of_lock? hl).1
  all_goals contradiction

/-- What a call holds is what its next step puts down. -/
theorem Call.held?_eq_putsDown? (b : Broker) (c : Call) :
    c.held? = (c.transfer b).putsDown? := by
  obtain c | c | c | ⟨_, _, _, point⟩ | ⟨r, token, verdict, point⟩ | ⟨_, point⟩ | _ | _ := c
  · cases c <;> rfl
  · cases c <;> rfl
  · rfl
  · cases point <;> rfl
  · cases point with
    | readingFault => cases verdict <;> rfl
    | releasing => simp only [Call.transfer]; cases b.lock? r token <;> rfl
    | recording l => cases verdict <;> rfl
    | announcing => cases verdict <;> rfl
  · cases point <;> rfl
  · rfl
  · rfl

private theorem held?_map_of_none {κ α : Type} (began : Nat) (point : κ → Call)
    (result : α → Outcome) (h : ∀ k, (point k).held? = none) (p : Progress κ α) :
    Entry.held? ⟨began, p.map point result⟩ = none := by
  cases p with
  | on k => exact h k
  | done a => rfl

/-- What a call holds after a step is what the step takes up. -/
theorem Call.held?_step (now began : Nat) (b : Broker) (c : Call) :
    Entry.held? ⟨began, (c.step now b).progress⟩ = (c.transfer b).takesUp? := by
  obtain c | c | c | ⟨r, most, timeout, point⟩ | ⟨r, token, verdict, point⟩ | ⟨r, point⟩ |
    _ | _ := c
  · refine (held?_map_of_none began _ _ (fun _ => rfl) _).trans ?_
    cases c <;> rfl
  · refine (held?_map_of_none began _ _ (fun _ => rfl) _).trans ?_
    cases c <;> rfl
  · exact held?_map_of_none began _ _ (fun _ => rfl) _
  · refine (held?_map_of_none began _ _ (fun _ => rfl) _).trans ?_
    cases point <;> rfl
  · cases point with
    | readingFault =>
      simp only [Call.step, Settle.step, Call.transfer, Transfer.takesUp?]
      split
      · split <;> rfl
      · rfl
    | releasing =>
      simp only [Call.step, Settle.step, Call.transfer]
      cases b.lock? r token <;> rfl
    | recording l => cases verdict <;> rfl
    | announcing => cases verdict <;> rfl
  · refine (held?_map_of_none began _ _ (fun _ => rfl) _).trans ?_
    cases point <;> rfl
  · rfl
  · rfl

/-! ## Where a copy can come from -/

/-- Whether a copy for an entity is the one of that number there. -/
def isFor (e : String) (n : Nat) (p : String × Copy) : Bool := p.1 = e && p.2.serial = n

/-- A queue holds what it held, and what was put there. -/
theorem mem_queue_apply {b : Broker} {t : Transfer} {e : String} {c : Copy}
    (h : c ∈ (t.apply b).queue e) : c ∈ b.queue e ∨ (e, c) ∈ t.placements b := by
  cases t with
  | nothing => exact .inl h
  | arrival target m =>
    simp only [Transfer.apply] at h
    rw [queue_enqueue, List.mem_append] at h
    refine h.imp_right fun hc => ?_
    obtain ⟨p, hp, rfl⟩ := List.mem_map.mp hc
    rw [List.mem_filter, decide_eq_true_eq] at hp
    rw [← hp.2]
    exact hp.1
  | take r most =>
    simp only [Transfer.apply] at h
    rw [queue_take] at h
    split at h
    · exact .inl (List.mem_of_mem_drop h)
    · exact .inl h
  | release l => exact .inl h
  | completion l => exact .inl h
  | restoration l =>
    simp only [Transfer.apply] at h
    rw [queue_recordAbandoned, List.mem_append] at h
    refine h.symm.imp_right fun hc => ?_
    split at hc
    · next he =>
      rw [List.mem_singleton] at hc
      rw [he, hc]
      exact List.mem_singleton_self _
    · contradiction
  | lapse r =>
    simp only [Transfer.apply] at h
    rw [queue_lapse, List.mem_append, List.mem_reverse] at h
    refine h.symm.imp_right fun hc => ?_
    obtain ⟨l, hl, rfl⟩ := List.mem_map.mp hc
    rw [List.mem_filter, decide_eq_true_eq] at hl
    exact List.mem_map.mpr ⟨l, hl.1, by rw [hl.2]⟩

/-- What a transfer puts into queues arrives, was in the hands of the call, or
was locked. -/
theorem mem_placements {b : Broker} {t : Transfer} {p : String × Copy} (h : p ∈ t.placements b) :
    p ∈ t.arrivals b ∨ (∃ l, t.restores? = some l ∧ p = (l.entity, l.copy)) ∨
      ∃ l ∈ b.locks, p = (l.entity, l.copy) := by
  cases t with
  | nothing => contradiction
  | arrival target m => exact .inl h
  | take r most => contradiction
  | release l => contradiction
  | completion l => contradiction
  | restoration l => exact .inr (.inl ⟨l, rfl, List.mem_singleton.mp h⟩)
  | lapse r =>
    obtain ⟨l, hl, rfl⟩ := List.mem_map.mp h
    exact .inr (.inr ⟨l, (List.mem_filter.mp hl).1, rfl⟩)

/-- A lock was there, or it is taken by a receiver, on a copy that waited in the queue
of its entity. -/
theorem mem_locks_apply {b : Broker} {t : Transfer} {l : Lock} (h : l ∈ (t.apply b).locks) :
    l ∈ b.locks ∨ ∃ r most, t = .take r most ∧ l.receiver = r.id ∧
      ∃ c ∈ b.queue l.entity, l.copy = c.handOut l.token := by
  cases t with
  | nothing => exact .inl h
  | arrival target m =>
    simp only [Transfer.apply] at h
    rw [enqueue_frame] at h
    exact .inl h
  | take r most =>
    simp only [Transfer.apply] at h
    rw [locks_take, List.mem_append] at h
    refine h.imp_right fun hl => ?_
    obtain ⟨hr, he, c, hc, hcopy⟩ := mem_lockAll hl
    rw [he]
    exact ⟨r, most, rfl, hr, c, List.mem_of_mem_take hc, hcopy⟩
  | release l => exact .inl (List.mem_filter.mp h).1
  | completion l => exact .inl h
  | restoration l => exact .inl h
  | lapse r =>
    simp only [Transfer.apply] at h
    rw [lapse_eq] at h
    exact .inl (List.mem_filter.mp h).1

/-- A lock was there, or it is what the transfer delivers. -/
theorem Transfer.mem_locks_or_deliveries {b : Broker} {t : Transfer} {l : Lock}
    (h : l ∈ (t.apply b).locks) : l ∈ b.locks ∨ l ∈ t.deliveries b := by
  cases t with
  | take r most =>
    simp only [Transfer.apply] at h
    rw [locks_take, List.mem_append] at h
    exact h
  | _ =>
    refine .inl ((mem_locks_apply h).resolve_right ?_)
    rintro ⟨r, most, ht, -⟩
    contradiction

/-- What is delivered has waited in the queue of its entity. -/
theorem Transfer.handOut_of_mem_deliveries {b : Broker} {t : Transfer} {l : Lock}
    (h : l ∈ t.deliveries b) : ∃ c ∈ b.queue l.entity, l.copy = c.handOut l.token := by
  cases t with
  | take r most =>
    obtain ⟨-, he, c, hc, hcopy⟩ := mem_lockAll h
    exact ⟨c, he ▸ List.mem_of_mem_take hc, hcopy⟩
  | _ => contradiction

/-- No transfer takes an identifier back. -/
theorem issued_le_apply (b : Broker) (t : Transfer) : b.issued ≤ (t.apply b).issued := by
  cases t with
  | arrival target m =>
    have hsame : (b.enqueue target m).issued = b.issued := by rw [enqueue_frame]
    exact Nat.le_of_eq hsame.symm
  | take r most => exact Nat.le_add_right _ _
  | lapse r =>
    have hsame : (b.lapse r).issued = b.issued := by rw [lapse_eq]
    exact Nat.le_of_eq hsame.symm
  | _ => exact Nat.le_refl _

/-- Identifiers go on coming from where they came. -/
theorem supply_apply (b : Broker) (t : Transfer) : (t.apply b).supply = b.supply := by
  cases t with
  | arrival target m => rw [Transfer.apply, enqueue_frame]
  | lapse r => rw [Transfer.apply, lapse_eq]
  | _ => rfl

theorem mem_completed_apply {b : Broker} {t : Transfer} {c : Copy}
    (h : c ∈ (t.apply b).completed) :
    c ∈ b.completed ∨ ∃ l, t.putsDown? = some l ∧ c = l.copy := by
  cases t with
  | nothing => exact .inl h
  | arrival target m =>
    simp only [Transfer.apply] at h
    rw [enqueue_frame] at h
    exact .inl h
  | take r most => exact .inl h
  | release l => exact .inl h
  | completion l =>
    simp only [Transfer.apply, recordCompleted, List.mem_append, List.mem_singleton] at h
    exact h.imp_right fun hc => ⟨l, rfl, hc⟩
  | restoration l => exact .inl h
  | lapse r =>
    simp only [Transfer.apply] at h
    rw [lapse_eq] at h
    exact .inl h

/-- Copies are numbered in the order in which they arrive. -/
theorem serials_arrivals (b : Broker) (t : Transfer) :
    (t.arrivals b).map (·.2.serial) = List.range' b.copies (t.arrivals b).length := by
  cases t with
  | arrival target m => rw [Transfer.arrivals, map_serial_copiesFor, length_copiesFor]
  | _ => rfl

/-- A copy that is made has a number that no copy had. -/
theorem copies_le_serial {b : Broker} {t : Transfer} {p : String × Copy} (h : p ∈ t.arrivals b) :
    b.copies ≤ p.2.serial := by
  have hm : p.2.serial ∈ (t.arrivals b).map (·.2.serial) := List.mem_map_of_mem h
  rw [serials_arrivals] at hm
  exact (List.mem_range'_1.mp hm).1

theorem copies_apply (b : Broker) (t : Transfer) :
    (t.apply b).copies = b.copies + (t.arrivals b).length := by
  cases t with
  | arrival target m =>
    simp only [Transfer.apply, Transfer.arrivals]
    rw [enqueue_frame, length_copiesFor]
  | lapse r => simp only [Transfer.apply]; rw [lapse_eq]; rfl
  | _ => rfl

/-- A transfer that makes copies finishes none. -/
theorem finishes?_of_mem_arrivals {b : Broker} {t : Transfer} {p : String × Copy}
    (h : p ∈ t.arrivals b) : t.finishes? = none := by
  cases t with
  | completion l => contradiction
  | _ => rfl

end PeekLock.Broker
