import PeekLock.Proofs.Broker.Refusals

/-!
# PeekLock.Proofs.Broker.FirstHand

A bus on which everything is completed.

Where the calls on their way only receive, complete and close one receiver
(`Call.IsPlain`), a copy comes back to its queue in one way: the receiver
is closed, and its lock lapses.  Such a copy can be delivered again, to a
receive that was about to look at the queue, but it is never completed
then: the lock is under a token that no settlement presents any more.  So
whatever is completed was delivered once (`FirstHand`).
-/

namespace PeekLock.Broker

/-- A call that receives, or completes under one of some tokens, or closes the receiver. -/
def Call.IsPlain (r : Receiver) (tokens : List LockToken) : Call → Prop
  | .receiving _ => True
  | .settling c => c.receiver = r ∧ c.verdict = .complete ∧ c.token ∈ tokens
  | .closing c => c.receiver = r
  | _ => False

namespace Call.IsPlain

variable {r : Receiver} {tokens tokens' : List LockToken} {c c' : Call} {b : Broker}

theorem mono (h : c.IsPlain r tokens) (ht : tokens ⊆ tokens') : c.IsPlain r tokens' := by
  cases c with
  | settling c => exact ⟨h.1, h.2.1, ht h.2.2⟩
  | _ => exact h

theorem step {now : Nat} (h : c.IsPlain r tokens) (hp : (c.step now b).progress = .on c') :
    c'.IsPlain r tokens := by
  cases c with
  | receiving c =>
    obtain ⟨k, -, rfl⟩ := Progress.map_eq_on hp
    trivial
  | settling c =>
    obtain ⟨k, hk, rfl⟩ := Progress.map_eq_on hp
    cases Settle.step_on hk <;> exact h
  | closing c =>
    obtain ⟨k, hk, rfl⟩ := Progress.map_eq_on hp
    obtain ⟨receiver, point⟩ := c
    cases point with
    | marking =>
      simp only [Close.step] at hk
      split at hk <;> cases hk
      exact h
    | lapsing =>
      cases hk
      exact h
    | announcing => cases hk
  | _ => contradiction

/-- What a step of a plain call does to the copies. -/
inductive Transfers (r : Receiver) (c : Call) : Transfer → Prop where
  | nothing : Transfers r c .nothing
  | take (r' : Receiver) (most : Nat) : Transfers r c (.take r' most)
  | release (l : Lock) : Transfers r c (.release l)
  | completion (l : Lock) : Transfers r c (.completion l)
  | lapse (hc : c = .closing ⟨r, .lapsing⟩) : Transfers r c (.lapse r)

/-- Every step of a plain call does one of these. -/
theorem transfers (h : c.IsPlain r tokens) : Transfers r c (c.transfer b) := by
  obtain c | c | c | ⟨r', most, timeout, point⟩ | ⟨r', token, verdict, point⟩ | ⟨r', point⟩ |
    _ | _ := c
  case receiving =>
    cases point with
    | looking => exact .take r' most
    | _ => exact .nothing
  case settling =>
    obtain ⟨-, rfl, -⟩ := h
    cases point with
    | releasing =>
      rw [transfer]
      cases b.lock? r' token with
      | none => exact .nothing
      | some l => exact .release l
    | recording l => exact .completion l
    | _ => exact .nothing
  case closing =>
    cases h
    cases point with
    | lapsing => exact .lapse rfl
    | _ => exact .nothing
  all_goals contradiction

/-- A plain call makes no copies. -/
theorem arrivals (h : c.IsPlain r tokens) : (c.transfer b).arrivals b = [] := by
  have ht := h.transfers (b := b)
  generalize c.transfer b = t at ht
  cases ht <;> rfl

/-- A plain call puts copies into queues only where it lets locks lapse. -/
theorem placements (h : c.IsPlain r tokens) :
    (c.transfer b).placements b = [] ∨ c = .closing ⟨r, .lapsing⟩ := by
  have ht := h.transfers (b := b)
  generalize c.transfer b = t at ht
  cases ht with
  | lapse hc => exact .inr hc
  | _ => exact .inl rfl

/-- A plain call abandons nothing. -/
theorem abandoned (h : c.IsPlain r tokens) : ((c.transfer b).apply b).abandoned = b.abandoned := by
  have ht := h.transfers (b := b)
  generalize c.transfer b = t at ht
  cases ht with
  | lapse => rw [Transfer.apply, lapse_eq]
  | _ => rfl

end Call.IsPlain

/-- A settlement that takes up a lock was about to release it. -/
theorem Call.releasing_of_takesUp? {b : Broker} {c : Call} {l : Lock}
    (h : (c.transfer b).takesUp? = some l) : l ∈ b.locks ∧
      ∃ k : Settle, c = .settling k ∧ k.token = l.token ∧ k.point = .releasing := by
  unfold transfer at h
  split at h
  case h_4 r token verdict =>
    cases hl : b.lock? r token with
    | none =>
      rw [hl] at h
      contradiction
    | some k =>
      rw [hl] at h
      cases h
      obtain ⟨hmem, ht, -⟩ := mem_of_lock? hl
      exact ⟨hmem, _, rfl, ht.symm, rfl⟩
  all_goals contradiction

namespace Traffic

/-- Whatever is completed was delivered once. -/
structure FirstHand (s : Traffic) (r : Receiver) (tokens : List LockToken) : Prop where
  plain : ∀ (i began : Nat) (c : Call), s.calls[i]? = some ⟨began, .on c⟩ → c.IsPlain r tokens
  /-- What has come back has come back from a closed receiver. -/
  waiting : ∀ e, ∀ c ∈ s.broker.queue e,
    c.message.deliveryCount = 0 ∨ s.broker.isOpen r = false
  /-- No settlement is about to release what was delivered again. -/
  locked : ∀ l ∈ s.broker.locks, l.copy.message.deliveryCount = 1 ∨
    s.broker.isOpen r = false ∧ ∀ (i began : Nat) (c : Settle),
      s.calls[i]? = some ⟨began, .on (.settling c)⟩ → c.point = .releasing → c.token ≠ l.token
  hands : ∀ l ∈ s.hands, l.copy.message.deliveryCount = 1 ∧ l.token ∈ tokens
  completed : ∀ c ∈ s.broker.completed, c.message.deliveryCount = 1 ∧ c.message.lockToken ∈ tokens
  abandoned : s.broker.abandoned = []

namespace FirstHand

variable {s : Traffic} {r : Receiver} {tokens tokens' : List LockToken} {ds : List Lock}
  {i began : Nat} {c : Call}

/-- What is asked for is noted. -/
theorem mono (h : s.FirstHand r tokens) (ht : tokens ⊆ tokens') : s.FirstHand r tokens' where
  plain i began c hi := (h.plain i began c hi).mono ht
  waiting := h.waiting
  locked := h.locked
  hands l hl := ⟨(h.hands l hl).1, ht (h.hands l hl).2⟩
  completed c hc := ⟨(h.completed c hc).1, ht (h.completed c hc).2⟩
  abandoned := h.abandoned

/-- What moves no copy, and neither opens the receiver nor brings a settlement further, keeps all
this. -/
theorem of_keepsCopies {t : Traffic} (h : s.FirstHand r tokens)
    (hk : KeepsCopies s.broker t.broker) (hands : t.hands = s.hands)
    (closed : s.broker.isOpen r = false → t.broker.isOpen r = false)
    (plain : ∀ (i began : Nat) (c : Call), t.calls[i]? = some ⟨began, .on c⟩ → c.IsPlain r tokens)
    (releasing : ∀ (i began : Nat) (c : Settle), t.calls[i]? = some ⟨began, .on (.settling c)⟩ →
      c.point = .releasing → s.calls[i]? = some ⟨began, .on (.settling c)⟩) :
    t.FirstHand r tokens where
  plain := plain
  waiting e c hc := (h.waiting e c (hk.queue e ▸ hc)).imp_right closed
  locked l hl := (h.locked l (hk.locks.mem_iff.mp hl)).imp_right fun ⟨hc, hn⟩ =>
    ⟨closed hc, fun i began c hi hp => hn i began c (releasing i began c hi hp) hp⟩
  hands l hl := h.hands l (hands ▸ hl)
  completed c hc := h.completed c (hk.completed ▸ hc)
  abandoned := hk.abandoned.trans h.abandoned

/-- A plain call begins. -/
theorem accept (h : s.FirstHand r tokens) {q : Request} (hq : q.call.IsPlain r tokens) :
    (s.accept q).FirstHand r tokens := by
  refine h.of_keepsCopies (.refl _) (hands_accept s q) id (fun i began c hi => ?_)
    fun i began c hi hp => ?_
  · obtain hi | ⟨-, rfl⟩ := call_of_accept hi
    · exact h.plain i began c hi
    · exact hq
  · refine (settling_of_accept hi).resolve_right fun ⟨_, hr⟩ => ?_
    rw [hp] at hr
    contradiction

theorem dropReceive {c : Receive} (h : s.FirstHand r tokens)
    (hi : s.calls[i]? = some ⟨began, .on (.receiving c)⟩) :
    (s.dropReceive i began c).FirstHand r tokens :=
  h.of_keepsCopies (c.drop_keepsCopies s.broker) (hands_dropReceive hi)
    (fun hc => (c.isOpen_drop s.broker r).trans hc)
    (fun j began c hj => h.plain j began c (call_of_dropReceive hi hj))
    fun _ _ _ hj _ => call_of_dropReceive hi hj

theorem pass (h : s.FirstHand r tokens) (ms : Nat) : (s.pass ms).FirstHand r tokens :=
  h.of_keepsCopies (.refl _) rfl id h.plain fun _ _ _ hi _ => hi

theorem rearrange (h : s.FirstHand r tokens) {locks : List Lock}
    (hp : locks.Perm s.broker.locks) : (s.rearrange locks).FirstHand r tokens :=
  h.of_keepsCopies ⟨fun _ => rfl, hp, rfl, rfl, rfl, rfl, Nat.le_refl _⟩ rfl id h.plain
    fun _ _ _ hi _ => hi

/-! ### Steps -/

theorem waiting_advance (h : s.FirstHand r tokens) (hs : s.Reachable)
    (hi : s.calls[i]? = some ⟨began, .on c⟩) (e : String) {d : Copy}
    (hd : d ∈ (s.advance i began c).broker.queue e) :
    d.message.deliveryCount = 0 ∨ (s.advance i began c).broker.isOpen r = false := by
  have hk := c.step_keepsCopies s.now s.broker
  have hq : d ∈ ((c.transfer s.broker).apply s.broker).queue e := hk.queue e ▸ hd
  obtain hq | hp := mem_queue_apply hq
  · exact (h.waiting e d hq).imp_right fun hc => Call.isOpen_step hc s.now c
  · refine .inr (Call.isOpen_step ?_ s.now c)
    obtain hnone | rfl := (h.plain i began c hi).placements (b := s.broker)
    · rw [hnone] at hp
      contradiction
    · exact hs.isOpen_of_isClosing i began _ hi (by simp [Call.isClosing])

/-- A settlement goes on to release a lock only while its receiver is open. -/
theorem releasing_advance (h : s.FirstHand r tokens) (hi : s.calls[i]? = some ⟨began, .on c⟩)
    (hc : s.broker.isOpen r = false) {j began' : Nat} {k : Settle}
    (hj : (s.advance i began c).calls[j]? = some ⟨began', .on (.settling k)⟩)
    (hp : k.point = .releasing) : s.calls[j]? = some ⟨began', .on (.settling k)⟩ := by
  obtain ⟨-, hj⟩ | ⟨-, -, k', rfl, hk⟩ := settling_of_advance hi hj
  · exact hj
  · cases Settle.step_on hk with
    | passed _ ho =>
      rw [(h.plain i began _ hi).1, hc] at ho
      contradiction
    | _ => contradiction

theorem locked_advance (h : s.FirstHand r tokens) (ht : s.Tracked ds)
    (htokens : tokens ⊆ ds.map (·.token)) (hi : s.calls[i]? = some ⟨began, .on c⟩) {l : Lock}
    (hl : l ∈ (s.advance i began c).broker.locks) :
    l.copy.message.deliveryCount = 1 ∨ (s.advance i began c).broker.isOpen r = false ∧
      ∀ (j began' : Nat) (k : Settle),
        (s.advance i began c).calls[j]? = some ⟨began', .on (.settling k)⟩ →
          k.point = .releasing → k.token ≠ l.token := by
  have hl' : l ∈ ((c.transfer s.broker).apply s.broker).locks :=
    (c.step_keepsCopies s.now s.broker).locks.mem_iff.mp hl
  obtain hold | hnew := Transfer.mem_locks_or_deliveries hl'
  · refine (h.locked l hold).imp_right fun ⟨hc, hn⟩ => ⟨Call.isOpen_step hc s.now c, ?_⟩
    exact fun j began' k hj hp => hn j began' k (h.releasing_advance hi hc hj hp) hp
  · cases htransfer : c.transfer s.broker with
    | take r' most =>
      rw [htransfer] at hnew
      obtain ⟨-, he, d, hd, hcopy⟩ := mem_lockAll hnew
      obtain hzero | hc := h.waiting _ d (List.mem_of_mem_take hd)
      · refine .inl ?_
        rw [hcopy]
        exact congrArg (· + 1) hzero
      -- what comes back from a closed receiver is locked under a token that nobody has
      · refine .inr ⟨Call.isOpen_step hc s.now c, fun j began' k hj hp heq => ?_⟩
        have hk := h.plain j began' _ (h.releasing_advance hi hc hj hp)
        obtain ⟨l', hl', hlk⟩ := List.mem_map.mp (htokens hk.2.2)
        obtain ⟨n, hn, hln⟩ := ht.drawn l' hl'
        obtain ⟨m, hm, -, hlm⟩ := Transfer.token_of_mem_deliveries (t := .take r' most) hnew
        have hsame : n = m := s.broker.supply.nth_inj
          (congrArg LockToken.text (hln.symm.trans (hlk.trans (heq.trans hlm))))
        omega
    | _ =>
      rw [htransfer] at hnew
      contradiction

theorem hands_advance (h : s.FirstHand r tokens) (hi : s.calls[i]? = some ⟨began, .on c⟩)
    {l : Lock} (hl : l ∈ (s.advance i began c).hands) :
    l.copy.message.deliveryCount = 1 ∧ l.token ∈ tokens := by
  obtain ⟨x, hx, hheld⟩ := List.mem_filterMap.mp hl
  obtain hx | rfl := List.mem_or_eq_of_mem_set hx
  · exact h.hands l (List.mem_filterMap.mpr ⟨x, hx, hheld⟩)
  · rw [Call.held?_step] at hheld
    obtain ⟨hmem, k, rfl, htoken, hp⟩ := Call.releasing_of_takesUp? hheld
    have hk := h.plain i began _ hi
    refine ⟨(h.locked l hmem).resolve_right fun ⟨_, hn⟩ => hn i began k hi hp htoken, ?_⟩
    rw [← htoken]
    exact hk.2.2

theorem completed_advance (h : s.FirstHand r tokens) (ht : s.Tracked ds)
    (hi : s.calls[i]? = some ⟨began, .on c⟩) {d : Copy}
    (hd : d ∈ (s.advance i began c).broker.completed) :
    d.message.deliveryCount = 1 ∧ d.message.lockToken ∈ tokens := by
  have hk := c.step_keepsCopies s.now s.broker
  have hd' : d ∈ ((c.transfer s.broker).apply s.broker).completed := hk.completed ▸ hd
  obtain hd' | ⟨l, hl, rfl⟩ := mem_completed_apply hd'
  · exact h.completed d hd'
  · rw [← c.held?_eq_putsDown? s.broker] at hl
    have hmem := mem_hands hi hl
    rw [ht.named l (ht.hands l hmem)]
    exact h.hands l hmem

/-- A step keeps it so that whatever is completed was delivered once. -/
theorem advance (h : s.FirstHand r tokens) (hs : s.Reachable) (ht : s.Tracked ds)
    (htokens : tokens ⊆ ds.map (·.token)) (hi : s.calls[i]? = some ⟨began, .on c⟩) :
    (s.advance i began c).FirstHand r tokens where
  plain j began' k hj := by
    obtain ⟨-, hj⟩ | ⟨-, -, hp⟩ := call_of_advance hi hj
    · exact h.plain j began' k hj
    · exact (h.plain i began c hi).step hp
  waiting e _ hd := h.waiting_advance hs hi e hd
  locked _ hl := h.locked_advance ht htokens hi hl
  hands _ hl := h.hands_advance hi hl
  completed _ hd := h.completed_advance ht hi hd
  abandoned := by
    have hk := c.step_keepsCopies s.now s.broker
    exact hk.abandoned.trans ((h.plain i began c hi).abandoned.trans h.abandoned)

end FirstHand

end Traffic

end PeekLock.Broker
