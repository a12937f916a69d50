import PeekLock.Consumer.Workshop
import PeekLock.Proofs.Broker.Settlements
import PeekLock.Proofs.Broker.Telling
import PeekLock.Proofs.Broker.Whereabouts

/-!
# PeekLock.Proofs.Broker.Honours

Settlements that nothing stands in the way of.

A settlement that was called for owes two things, until it has done them:
the release of its lock, and a record of what became of the copy.  Where
its receiver is open, no fault is set, and its lock is there, it does both;
so the locks and the settlements that have not released theirs go
together, and so do the records and the settlements that have not made
theirs (`Call.locks_step`, `Call.records_step`).
-/

namespace PeekLock.Broker

/-! ## What settlements owe -/

/-- The tokens of the locks that a call is about to release. -/
def Entry.unreleased : Entry → List LockToken
  | ⟨_, .on (.settling c)⟩ => if c.point.hasReleased then [] else [c.token]
  | _ => []

/-- A settlement that has not released its lock. -/
theorem mem_unreleased {x : Entry} {token : LockToken} (h : token ∈ x.unreleased) :
    ∃ began c, x = ⟨began, .on (.settling c)⟩ ∧ c.point.hasReleased = false ∧ token = c.token := by
  unfold Entry.unreleased at h
  split at h
  · next began c =>
    split at h
    · contradiction
    · next hne => exact ⟨began, c, rfl, by simpa using hne, List.mem_singleton.mp h⟩
  · contradiction

/-- The settlement that a call has not recorded yet. -/
def Entry.unrecorded : Entry → List (LockToken × Verdict)
  | ⟨_, .on (.settling c)⟩ => if c.point = .announcing then [] else [(c.token, c.verdict)]
  | _ => []

/-- The settlements that are on record. -/
def records (b : Broker) : List (LockToken × Verdict) :=
  b.completed.map (fun c => (c.message.lockToken, .complete)) ++
    b.abandoned.map fun c => (c.message.lockToken, .abandon)

/-- Nothing stands in the way of a settlement. -/
structure Settle.Honoured (b : Broker) (c : Settle) : Prop where
  isOpen : b.isOpen c.receiver = true
  faults : b.faults.spareSettlements = true
  lock : c.point.hasReleased = false → ∃ l ∈ b.locks, l.token = c.token ∧ l.receiver = c.receiver.id
  copy : ∀ l, c.point = .recording l → l.copy.message.lockToken = c.token

/-- Whether a call leaves settlements alone: it closes no receiver and sets no fault. -/
def Call.sparesSettlements : Call → Bool
  | .closing _ => false
  | .arranging faults => faults.spareSettlements
  | _ => true

theorem fault?_eq_none {b : Broker} (h : b.faults.spareSettlements = true) (v : Verdict) :
    Settle.fault? b v = none := by
  simp only [Faults.spareSettlements, Bool.and_eq_true, Option.isNone_iff_eq_none] at h
  cases v with
  | complete => exact h.1
  | abandon => exact h.2

/-! ## Settlements -/

namespace Settle

/-- A settlement that is honoured has released its lock, or it does so next. -/
theorem Honoured.lock? {b : Broker} {c : Settle} (h : Honoured b c) (hp : c.point = .releasing) :
    ∃ l, b.lock? c.receiver c.token = some l := by
  obtain ⟨l, hl, ht, hr⟩ := h.lock (by rw [hp]; rfl)
  refine Option.ne_none_iff_exists'.mp fun hnone => ?_
  exact lock?_eq_none_iff.mp hnone l hl ht hr

/-- A lock is released by the settlement that owes that. -/
theorem locks_step {b : Broker} (hm : Minted b) {c : Settle} (h : Honoured b c) (began : Nat) :
    ((c.step b).state.locks.map (·.token) ++ Entry.unreleased ⟨began, .on (.settling c)⟩).Perm
      (b.locks.map (·.token) ++
        Entry.unreleased ⟨began, (c.step b).progress.map .settling .settled⟩) := by
  obtain ⟨r, token, verdict, point⟩ := c
  cases point with
  | readingFault =>
    have ho : b.isOpen r = true := h.isOpen
    have hf := fault?_eq_none h.faults verdict
    simp only [step, ho, hf, if_true]
    exact .refl _
  | releasing =>
    obtain ⟨l, hl⟩ := h.lock? rfl
    obtain ⟨hmem, rfl, -⟩ := mem_of_lock? hl
    have hl' : b.lock? r l.token = some l := hl
    simp only [step, hl']
    have herase : (b.unlock l.token).locks.map (·.token) =
        (b.locks.map (·.token)).erase l.token := by
      rw [hm.distinct.erase_eq_filter, List.filter_map]
      simp only [unlock, Function.comp_def, bne, decide_not, beq_eq_decide]
    have hcons := List.perm_cons_erase (List.mem_map_of_mem (f := (·.token)) hmem)
    rw [herase]
    exact (List.perm_append_singleton _ _).trans
      (hcons.symm.trans (.of_eq (List.append_nil _).symm))
  | recording l => cases verdict <;> exact .refl _
  | announcing => exact .refl _

/-- A settlement is recorded by the call that owes that. -/
theorem records_step {b : Broker} {c : Settle} (h : Honoured b c) (began : Nat) :
    ((c.step b).state.records ++
        Entry.unrecorded ⟨began, (c.step b).progress.map .settling .settled⟩).Perm
      (b.records ++ Entry.unrecorded ⟨began, .on (.settling c)⟩) := by
  obtain ⟨r, token, verdict, point⟩ := c
  cases point with
  | readingFault =>
    have ho : b.isOpen r = true := h.isOpen
    have hf := fault?_eq_none h.faults verdict
    simp only [step, ho, hf, if_true]
    exact .refl _
  | releasing =>
    obtain ⟨l, hl⟩ := h.lock? rfl
    have hl' : b.lock? r token = some l := hl
    simp only [step, hl']
    exact .refl _
  | recording l =>
    have ht : l.copy.message.lockToken = token := h.copy l rfl
    cases verdict with
    | complete =>
      show ((b.recordCompleted l).records ++ []).Perm (b.records ++ [(token, Verdict.complete)])
      simp only [records, recordCompleted, List.map_append, List.map_cons, List.map_nil, ht,
        List.append_nil, List.append_assoc]
      exact List.perm_append_comm.append_left _
    | abandon =>
      show ((b.recordAbandoned l).records ++ []).Perm (b.records ++ [(token, Verdict.abandon)])
      simp only [records, recordAbandoned, giveBack, List.map_append, List.map_cons, List.map_nil,
        ht, List.append_nil, List.append_assoc]
      exact .refl _
  | announcing => exact .refl _

end Settle

/-! ## All calls -/

namespace Call

/-- What comes from outside leaves settlements alone. -/
theorem sparesSettlements_of_isOutside {c : Call} (h : c.isOutside = true) :
    c.sparesSettlements = true := by
  cases c <;> first | rfl | exact h

/-- A call that goes on leaves settlements alone as before. -/
theorem sparesSettlements_step {now : Nat} {b : Broker} {c c' : Call}
    (h : c.sparesSettlements = true) (hp : (c.step now b).progress = .on c') :
    c'.sparesSettlements = true := by
  cases c with
  | closing c => contradiction
  | subscribing topic name => contradiction
  | arranging faults => contradiction
  | _ =>
    obtain ⟨k, -, rfl⟩ := Progress.map_eq_on hp
    rfl

/-- Only a close closes a receiver. -/
theorem closed_step {c : Call} (h : c.sparesSettlements = true) (now : Nat) (b : Broker) :
    (c.step now b).state.closed = b.closed := by
  obtain hs | ⟨r, rfl⟩ := c.step_silent now b
  · rw [hs.closed, told]
    split <;> rfl
  · contradiction

/-- The faults of settlements, before and after a message is built. -/
theorem faults_buildMessage (b : Broker) (now : Nat) (body : List UInt8) (options : SendOptions) :
    (b.buildMessage now body options).2.faults = b.faults := by
  unfold buildMessage
  cases options.messageId <;> rfl

theorem faults_goOn (now : Nat) (b : Broker) (target : String) (count : Nat)
    (options : SendOptions) (bodies : List (List UInt8)) :
    (SendBatch.goOn now b target count options bodies).state.faults = b.faults := by
  cases bodies with
  | nil => rfl
  | cons body rest => exact faults_buildMessage b now body options

/-- A step that sets no fault of settlements leaves them unset. -/
theorem faults_step {c : Call} (h : c.sparesSettlements = true) (now : Nat) {b : Broker}
    (hb : b.faults.spareSettlements = true) :
    (c.step now b).state.faults.spareSettlements = true := by
  obtain c | c | c | ⟨r, most, timeout, point⟩ | ⟨r, token, verdict, point⟩ | ⟨r, point⟩ |
    _ | faults := c
  · cases c with
    | checking target body options =>
      simp only [step, Step.map, Send.step]
      split
      · exact hb
      · rwa [faults_buildMessage]
    | enqueueing target m =>
      simp only [step, Step.map, Send.step]
      rw [enqueue_frame]
      exact hb
    | announcing target id => exact hb
  · cases c with
    | checking target bodies options =>
      simp only [step, Step.map, SendBatch.step]
      split
      · exact hb
      · rwa [faults_goOn]
    | enqueueing target count m rest options =>
      simp only [step, Step.map, SendBatch.step]
      rw [enqueue_frame]
      exact hb
    | announcing target count rest options =>
      simp only [step, Step.map, SendBatch.step]
      rwa [faults_goOn]
  · cases c with
    | checking entity =>
      simp only [step, Step.map, Open.step]
      split
      · exact hb
      · split <;> exact hb
    | registering path => exact hb
  · cases point with
    | delayed due => exact hb
    | _ => simp only [step, Step.map, Receive.step]; split <;> exact hb
  · cases point with
    | readingFault =>
      simp only [step, Step.map, Settle.step]
      split
      · split <;> exact hb
      · exact hb
    | releasing => simp only [step, Step.map, Settle.step]; split <;> exact hb
    | recording l => cases verdict <;> exact hb
    | announcing => exact hb
  · contradiction
  · exact hb
  · exact h

private theorem owes_map_of_none {κ α : Type} (began : Nat) (point : κ → Call)
    (result : α → Outcome)
    (h : ∀ k, Entry.unreleased ⟨began, .on (point k)⟩ = [] ∧
      Entry.unrecorded ⟨began, .on (point k)⟩ = []) (p : Progress κ α) :
    Entry.unreleased ⟨began, p.map point result⟩ = [] ∧
      Entry.unrecorded ⟨began, p.map point result⟩ = [] := by
  cases p with
  | on k => exact h k
  | done a => exact ⟨rfl, rfl⟩

/-- Only a settlement owes anything. -/
theorem owes_step {c : Call} (h : ∀ k, c ≠ .settling k) (now began : Nat) (b : Broker) :
    Entry.unreleased ⟨began, (c.step now b).progress⟩ = [] ∧
      Entry.unrecorded ⟨began, (c.step now b).progress⟩ = [] := by
  cases c with
  | settling k => exact (h k rfl).elim
  | subscribing topic name => exact ⟨rfl, rfl⟩
  | arranging faults => exact ⟨rfl, rfl⟩
  | _ => exact owes_map_of_none began _ _ (fun _ => ⟨rfl, rfl⟩) _

theorem owes_of_ne {c : Call} (h : ∀ k, c ≠ .settling k) (began : Nat) :
    Entry.unreleased ⟨began, .on c⟩ = [] ∧ Entry.unrecorded ⟨began, .on c⟩ = [] := by
  cases c with
  | settling k => exact (h k rfl).elim
  | _ => exact ⟨rfl, rfl⟩

/-- A call that is no settlement and leaves settlements alone takes no lock away and
records nothing. -/
theorem transfer_of_sparesSettlements {b : Broker} {c : Call} (h : c.sparesSettlements = true)
    (hc : ∀ k, c ≠ .settling k) :
    ((c.transfer b).apply b).locks = b.locks ++ (c.transfer b).deliveries b ∧
      ((c.transfer b).apply b).records = b.records := by
  cases ht : c.transfer b with
  | nothing => exact ⟨(List.append_nil _).symm, rfl⟩
  | arrival target m =>
    simp only [Transfer.apply, Transfer.deliveries]
    rw [enqueue_frame, List.append_nil]
    exact ⟨rfl, rfl⟩
  | take r most => exact ⟨rfl, rfl⟩
  | _ =>
    exfalso
    unfold transfer at ht
    split at ht
    case h_4 => exact hc _ rfl
    case h_5 => exact hc _ rfl
    case h_6 => exact hc _ rfl
    case h_7 => contradiction
    all_goals contradiction

/-- **Locks and settlements**: a step adds locks for what it delivers, and takes away
those that a settlement was about to release. -/
theorem locks_step {b : Broker} (hm : Minted b) {c : Call} (h : c.sparesSettlements = true)
    (hs : ∀ k, c = .settling k → Settle.Honoured b k) (now began : Nat) :
    ((c.step now b).state.locks.map (·.token) ++ Entry.unreleased ⟨began, .on c⟩).Perm
      (b.locks.map (·.token) ++ (Entry.unreleased ⟨began, (c.step now b).progress⟩ ++
        ((c.transfer b).deliveries b).map (·.token))) := by
  by_cases hc : ∃ k, c = .settling k
  · obtain ⟨k, rfl⟩ := hc
    have hnone : ((Call.settling k).transfer b).deliveries b = [] := by
      cases ht : (Call.settling k).transfer b with
      | take r most =>
        obtain ⟨_, _, _, hk⟩ := looking_of_take ht
        cases hk
      | _ => rfl
    rw [hnone, List.map_nil, List.append_nil]
    exact Settle.locks_step hm (hs k rfl) began
  · have hne : ∀ k, c ≠ .settling k := fun k hk => hc ⟨k, hk⟩
    have hk := (c.step_keepsCopies now b).locks.map (·.token)
    rw [(transfer_of_sparesSettlements h hne).1, List.map_append] at hk
    rw [(owes_step hne now began b).1, (owes_of_ne hne began).1, List.append_nil, List.nil_append]
    exact hk

/-- **Records and settlements**: a step records what a settlement was about to record. -/
theorem records_step {b : Broker} {c : Call} (h : c.sparesSettlements = true)
    (hs : ∀ k, c = .settling k → Settle.Honoured b k) (now began : Nat) :
    ((c.step now b).state.records ++ Entry.unrecorded ⟨began, (c.step now b).progress⟩).Perm
      (b.records ++ Entry.unrecorded ⟨began, .on c⟩) := by
  by_cases hc : ∃ k, c = .settling k
  · obtain ⟨k, rfl⟩ := hc
    exact Settle.records_step (hs k rfl) began
  · have hne : ∀ k, c ≠ .settling k := fun k hk => hc ⟨k, hk⟩
    have hk := c.step_keepsCopies now b
    have hr : (c.step now b).state.records = ((c.transfer b).apply b).records := by
      rw [records, records, hk.completed, hk.abandoned]
    rw [(owes_step hne now began b).2, (owes_of_ne hne began).2, hr,
      (transfer_of_sparesSettlements h hne).2]

end Call

/-! ## What a settlement has released -/

namespace Traffic

/-- A settlement has released the lock of its own token. -/
theorem Reachable.token_of_recording {s : Traffic} (h : s.Reachable) {i began : Nat} {c : Settle}
    {l : Lock} (hi : s.calls[i]? = some ⟨began, .on (.settling c)⟩) (hp : c.point = .recording l) :
    l.token = c.token := by
  obtain ⟨supply, h⟩ := h
  induction h generalizing began c with
  | refl => contradiction
  | step _ hm ih =>
    obtain hi | hq | ⟨-, k, hk, hstep⟩ := settling_of_after hm hi
    · exact ih hi hp
    · rw [hp] at hq
      contradiction
    · cases Settle.step_on hstep with
      | passed => contradiction
      | released l' _ _ ht =>
        cases hp
        exact ht
      | recorded => contradiction

/-! ## A receiver in service -/

/-- A receiver is in service: it is open, no call stands in the way of its settlements,
and the locks are those that are due to be released, now or after a settlement that is
called for.  What was asked of it is on record, or it is going to be. -/
structure Serves (s : Traffic) (r : Receiver) (due : List LockToken)
    (asked : List (LockToken × Verdict)) : Prop where
  isOpen : s.broker.isOpen r = true
  faults : s.broker.faults.spareSettlements = true
  spares : ∀ (i began : Nat) (c : Call), s.calls[i]? = some ⟨began, .on c⟩ →
    c.sparesSettlements = true
  locks : (s.broker.locks.map (·.token)).Perm (due ++ s.calls.flatMap Entry.unreleased)
  records : asked.Perm (s.broker.records ++ s.calls.flatMap Entry.unrecorded)

namespace Serves

variable {s : Traffic} {r : Receiver} {due due' : List LockToken}
  {asked : List (LockToken × Verdict)}

theorem of_perm (h : s.Serves r due asked) (hp : due'.Perm due) : s.Serves r due' asked :=
  { h with locks := h.locks.trans (hp.symm.append_right _) }

/-- A call begins that owes nothing. -/
theorem accept (h : s.Serves r due asked) {q : Request} (hq : q.call.sparesSettlements = true)
    (hne : ∀ k, q.call ≠ .settling k) : (s.accept q).Serves r due asked where
  isOpen := h.isOpen
  faults := h.faults
  spares i began c hi := by
    obtain hi | ⟨-, rfl⟩ := call_of_accept hi
    · exact h.spares i began c hi
    · exact hq
  locks := by
    simp only [Traffic.accept, List.flatMap_append, List.flatMap_singleton,
      (Call.owes_of_ne hne s.now).1, List.append_nil]
    exact h.locks
  records := by
    simp only [Traffic.accept, List.flatMap_append, List.flatMap_singleton,
      (Call.owes_of_ne hne s.now).2, List.append_nil]
    exact h.records

/-- A settlement of what is due is called for. -/
theorem settle (h : s.Serves r due asked) {token : LockToken} {verdict : Verdict}
    (hp : due.Perm (token :: due')) :
    (s.accept (.settle r token verdict)).Serves r due' (asked ++ [(token, verdict)]) where
  isOpen := h.isOpen
  faults := h.faults
  spares i began c hi := by
    obtain hi | ⟨-, rfl⟩ := call_of_accept hi
    · exact h.spares i began c hi
    · rfl
  locks := by
    have hnew : (s.accept (.settle r token verdict)).calls.flatMap Entry.unreleased =
        s.calls.flatMap Entry.unreleased ++ [token] := by
      rw [Traffic.accept, List.flatMap_append, List.flatMap_singleton]
      rfl
    rw [hnew]
    calc
      s.broker.locks.map (·.token)
        |>.Perm (due ++ s.calls.flatMap Entry.unreleased) := h.locks
      _ |>.Perm (token :: (due' ++ s.calls.flatMap Entry.unreleased)) := hp.append_right _
      _ |>.Perm (due' ++ s.calls.flatMap Entry.unreleased ++ [token]) :=
        (List.perm_append_singleton _ _).symm
      _ |>.Perm (due' ++ (s.calls.flatMap Entry.unreleased ++ [token])) :=
        .of_eq (List.append_assoc ..)
  records := by
    have hnew : (s.accept (.settle r token verdict)).calls.flatMap Entry.unrecorded =
        s.calls.flatMap Entry.unrecorded ++ [(token, verdict)] := by
      rw [Traffic.accept, List.flatMap_append, List.flatMap_singleton]
      rfl
    rw [hnew, ← List.append_assoc]
    exact h.records.append_right _

/-- Nothing stands in the way of a settlement of a receiver in service. -/
theorem honoured (h : s.Serves r due asked) (hr : s.Reachable) {ds : List Lock}
    (ht : s.Tracked ds) (own : ∀ l ∈ s.broker.locks, l.receiver = r.id) {i began : Nat}
    {c : Settle} (hi : s.calls[i]? = some ⟨began, .on (.settling c)⟩) (hc : c.receiver = r) :
    Settle.Honoured s.broker c where
  isOpen := hc ▸ h.isOpen
  faults := h.faults
  lock hp := by
    have howed : c.token ∈ s.calls.flatMap Entry.unreleased := by
      refine List.mem_flatMap.mpr ⟨_, List.mem_of_getElem? hi, ?_⟩
      simp [Entry.unreleased, hp]
    have htoken := h.locks.mem_iff.mpr (List.mem_append_right due howed)
    obtain ⟨l, hl, heq⟩ := List.mem_map.mp htoken
    exact ⟨l, hl, heq, hc ▸ own l hl⟩
  copy l hp := by
    have hheld : l ∈ s.hands := by
      refine mem_hands hi ?_
      obtain ⟨_, _, _, point⟩ := c
      cases hp
      rfl
    rw [ht.named l (ht.hands l hheld)]
    exact hr.token_of_recording hi hp

/-- A call takes a step; what it delivers is due then. -/
theorem advance (h : s.Serves r due asked) (hm : Minted s.broker) {i began : Nat} {c : Call}
    (hi : s.calls[i]? = some ⟨began, .on c⟩)
    (hs : ∀ k, c = .settling k → Settle.Honoured s.broker k) :
    (s.advance i began c).Serves r
      (due ++ ((c.transfer s.broker).deliveries s.broker).map (·.token)) asked where
  isOpen := by
    show (c.step s.now s.broker).state.isOpen r = true
    rw [Broker.isOpen, Call.closed_step (h.spares i began c hi)]
    exact h.isOpen
  faults := Call.faults_step (h.spares i began c hi) s.now h.faults
  spares j began' k hj := by
    obtain ⟨-, hj⟩ | ⟨-, -, hp⟩ := call_of_advance hi hj
    · exact h.spares j began' k hj
    · exact Call.sparesSettlements_step (h.spares i began c hi) hp
  locks := by
    have hstep := Call.locks_step hm (h.spares i began c hi) hs s.now began
    have hcalls := perm_flatMap_set Entry.unreleased hi ⟨began, (c.step s.now s.broker).progress⟩
    refine perm_of_exchange h.locks hstep ?_
    rw [List.perm_iff_count] at hcalls ⊢
    intro token
    have hcount := hcalls token
    simp only [Traffic.advance, List.count_append] at hcount ⊢
    omega
  records := by
    have hstep := Call.records_step (h.spares i began c hi) hs s.now began
    have hcalls := perm_flatMap_set Entry.unrecorded hi ⟨began, (c.step s.now s.broker).progress⟩
    refine h.records.trans ?_
    rw [List.perm_iff_count] at hstep hcalls ⊢
    intro settlement
    have hcount := hcalls settlement
    have hcount' := hstep settlement
    simp only [Traffic.advance, List.count_append] at hcount hcount' ⊢
    omega

/-- A receive is dropped. -/
theorem dropReceive (h : s.Serves r due asked) {i began : Nat} {c : Receive}
    (hi : s.calls[i]? = some ⟨began, .on (.receiving c)⟩) :
    (s.dropReceive i began c).Serves r due asked := by
  have hb : (c.drop s.broker).closed = s.broker.closed ∧
      (c.drop s.broker).faults = s.broker.faults := by
    unfold Receive.drop
    split <;> exact ⟨rfl, rfl⟩
  have hk := c.drop_keepsCopies s.broker
  have hcalls {β : Type} (f : Entry → List β) (hf : f ⟨began, .on (.receiving c)⟩ = [])
      (hd : f ⟨began, .done .dropped⟩ = []) :
      ((s.calls.set i ⟨began, .done .dropped⟩).flatMap f).Perm (s.calls.flatMap f) := by
    have hp := perm_flatMap_set f hi ⟨began, .done .dropped⟩
    rwa [hf, hd, List.append_nil, List.append_nil] at hp
  refine ⟨?_, ?_, ?_, ?_, ?_⟩
  · show (c.drop s.broker).isOpen r = true
    rw [Broker.isOpen, hb.1]
    exact h.isOpen
  · show (c.drop s.broker).faults.spareSettlements = true
    rw [hb.2]
    exact h.faults
  · exact fun j began' k hj => h.spares j began' k (call_of_dropReceive hi hj)
  · exact (hk.locks.map _).trans (h.locks.trans ((hcalls _ rfl rfl).symm.append_left _))
  · have hr : (c.drop s.broker).records = s.broker.records := by
      rw [Broker.records, Broker.records, hk.completed, hk.abandoned]
    show asked.Perm ((c.drop s.broker).records ++ _)
    rw [hr]
    exact h.records.trans ((hcalls _ rfl rfl).symm.append_left _)

theorem rearrange (h : s.Serves r due asked) {locks : List Lock}
    (hp : locks.Perm s.broker.locks) : (s.rearrange locks).Serves r due asked :=
  ⟨h.isOpen, h.faults, h.spares, (hp.map _).trans h.locks, h.records⟩

end Serves

end Traffic

end PeekLock.Broker
