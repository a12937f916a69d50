import PeekLock.Proofs.Consumer.Dealings

/-!
# PeekLock.Proofs.Consumer.Draining

What a stop leaves behind that has waited for all workers.

A worker ends at its tokens only, where no message is before it and no
call of it is on its way.  So when all have ended nothing is locked, and
since nobody is hired any more, that stays so (`Quiet`): the close of the
receiver has nothing to put back.
-/

namespace PeekLock.Workshop

variable {settings : ConsumerSettings} {s t : Workshop}

/-- All workers have ended for good, and nothing is locked. -/
structure Quiet (s : Workshop) : Prop where
  ended : ∀ p ∈ s.posts, ∃ how, p.stage = .ended how
  locks : s.traffic.broker.locks = []
  emptied : 0 < s.life.count Consumer.hasEmptied ∨ s.life.consumer.phase = .stopped

namespace Quiet

/-- No worker is anywhere else. -/
theorem stage_ne (h : s.Quiet) {k : Nat} {p : Post} (hk : s.posts[k]? = some p)
    (hs : p.stage.exit? = none) : False := by
  obtain ⟨how, he⟩ := h.ended p (List.mem_of_getElem? hk)
  rw [he] at hs
  contradiction

/-- Nobody is hired. -/
theorem hired_eq_nil (h : s.Quiet) (hl : s.life.Reachable settings) {i : Nat}
    {q : Consumer.Request} {k : Consumer.Call} {c : Consumer}
    {p : Progress Consumer.Call Consumer.Outcome} (hi : s.life.calls[i]? = some ⟨q, .on k⟩)
    (ht : Consumer.Turn s.life.now s.life.consumer k c p) :
    (s.life.resume i q c p).hired i = [] := by
  refine Consumer.Life.hired_resume hi fun n hp => ?_
  subst hp
  cases ht with
  | hires caller =>
    have hpos := Consumer.Life.count_pos hi (f := Consumer.isHiring) rfl
    have hnone : s.life.count Consumer.isHiring = 0 :=
      h.emptied.elim hl.orderly.emptied hl.orderly.stopped
    omega

/-- A call that goes on without a worker locks nothing. -/
theorem locks_advance (h : s.Quiet) {i began : Nat} {c : Broker.Call}
    (hc : c.isUnattended = true) : (s.traffic.advance i began c).broker.locks = [] := by
  refine List.eq_nil_iff_forall_not_mem.mpr fun l hl => ?_
  have hl' := (c.step_keepsCopies s.traffic.now s.traffic.broker).locks.mem_iff.mp hl
  obtain hl' | hl' := Broker.Transfer.mem_locks_or_deliveries hl'
  · rw [h.locks] at hl'
    contradiction
  · rw [Broker.Call.deliveries_eq_nil hc] at hl'
    contradiction

/-- Where all is quiet, it stays so. -/
theorem turn (h : s.Quiet) (hp : s.Parts settings) (ht : Turn s t) : t.Quiet := by
  cases ht with
  | asks | waits | cancels | closes => exact ⟨h.ended, h.locks, h.emptied⟩
  | carries i began c hi hc => exact ⟨h.ended, h.locks_advance hc, h.emptied⟩
  | rearranges locks hperm =>
    rw [h.locks] at hperm
    exact ⟨h.ended, hperm.eq_nil, h.emptied⟩
  | requests q =>
    refine ⟨h.ended, h.locks, ?_⟩
    rw [Consumer.Life.count_accept (by cases q <;> rfl)]
    exact h.emptied
  | proceeds i q k c p hi ht =>
    refine ⟨?_, h.locks, Consumer.Life.emptied_of_turn hi ht h.emptied⟩
    rw [h.hired_eq_nil hp.life hi ht, List.append_nil]
    exact h.ended
  | answers i q closed hi =>
    exact ⟨h.ended, h.locks, Consumer.Life.emptied_of_turn hi (.isAnswered closed) h.emptied⟩
  | looks k p hk hs => exact (h.stage_ne hk (by obtain hs | hs := hs <;> rw [hs] <;> rfl)).elim
  | ends k p how hk hs | receives k p most timeout hk hs | polls k p i began c c' hk hs
  | finds k p i began c locks hk hs | misses k p i began c e stage errand hk hs
  | drops k p i began c stage errand hk hs | handles k p m rest result hk hs
  | presses k p i began c c' m rest hk hs | settles k p i began c m rest result hk hs =>
    exact (h.stage_ne hk (by rw [hs]; rfl)).elim

theorem leads (h : s.Quiet) (hr : s.Reachable settings) (hl : s.Leads t) : t.Quiet := by
  induction hl with
  | refl => exact h
  | step hs hm ih =>
    have hp := (hr.leads hs).parts
    exact ih.turn hp (turn_of_after hp.tended hm)

/-- No worker has a message before it. -/
theorem unhandled_eq_nil (h : ∀ p ∈ s.posts, ∃ how, p.stage = .ended how) : s.unhandled = [] := by
  refine List.flatMap_eq_nil_iff.mpr fun p hp => ?_
  obtain ⟨how, he⟩ := h p hp
  rw [Post.unhandled, he]

end Quiet

/-- Where all workers have ended, no call that needs one is on its way. -/
theorem Parts.attendedAt_eq_none (hp : s.Parts settings)
    (h : ∀ p ∈ s.posts, ∃ how, p.stage = .ended how) (i : Nat) :
    Broker.attendedAt s.traffic.calls i = none := by
  refine Option.not_isSome_iff_eq_none.mp fun hsome => ?_
  obtain ⟨k, p, hk, he⟩ := hp.tended.exists_post hsome
  obtain ⟨how, hended⟩ := h p (List.mem_of_getElem? hk)
  rw [(hp.tended.fits k p hk).call?_of_isResting (by rw [hended]; rfl)] at he
  contradiction

/-- Where all workers have ended, nothing is locked until the close is called. -/
theorem InService.locks_eq_nil (h : s.InService) (hp : s.Parts settings)
    (hended : ∀ p ∈ s.posts, ∃ how, p.stage = .ended how) : s.traffic.broker.locks = [] := by
  have howed : s.traffic.calls.flatMap Broker.Entry.unreleased = [] := by
    refine List.flatMap_eq_nil_iff.mpr fun x hx => ?_
    refine List.eq_nil_iff_forall_not_mem.mpr fun token ht => ?_
    obtain ⟨began, c, rfl, -, -⟩ := Broker.mem_unreleased ht
    obtain ⟨i, hi⟩ := List.mem_iff_getElem?.mp hx
    have hnone := hp.attendedAt_eq_none hended i
    rw [Broker.attendedAt_of_getElem? hi] at hnone
    contradiction
  have hlocks := h.locks
  rw [Quiet.unhandled_eq_nil hended, howed] at hlocks
  exact List.map_eq_nil_iff.mp hlocks.eq_nil

section

variable {i n : Nat} {q : Consumer.Request} {wait : Duration} {d : Pool.Shutdown}

/-- The close is not called before the wait for the crew is over. -/
theorem Parts.closing_of_draining (hp : s.Parts settings)
    (hi : s.life.calls[i]? = some ⟨q, .on (.stopping (.draining n wait d))⟩) :
    s.closing = none := by
  refine Classical.byContradiction fun hne => ?_
  obtain ⟨u, j, q', hu, hj⟩ := hp.closing hne
  have horderly := hp.life.orderly
  obtain hclosing | ⟨closed, hstoring⟩ | hstopped := hu.closing_or_stopped hj
  · have hij := horderly.eq_of_inCharge hi rfl hclosing rfl
    rw [hij, hclosing] at hi
    cases hi
  · have hij := horderly.eq_of_inCharge hi rfl hstoring rfl
    rw [hij, hstoring] at hi
    cases hi
  · have hstopping := horderly.phase_of_inCharge hi rfl
    rw [hstopped] at hstopping
    contradiction

/-- When the wait for the crew finds that all have ended, they have. -/
theorem Parts.ended_of_drained (hp : s.Parts settings)
    (hi : s.life.calls[i]? = some ⟨q, .on (.stopping (.draining n wait d))⟩)
    (hd : (d.step s.life.now (s.life.consumer.crew n).pool).progress = .done true) :
    ∀ p ∈ s.posts, ∃ how, p.stage = .ended how := by
  obtain ⟨rfl, -, x, hx, hw, hdrains⟩ := hp.life.custody.of_draining hi
  cases d with
  | stopping ticks => contradiction
  | joining workers due =>
    obtain ⟨rfl, -⟩ := hdrains
    rw [Consumer.crew_zero hx] at hd
    have hended : x.pool.haveEnded (List.range s.life.consumer.settings.workers) = true := by
      simp only [Pool.Shutdown.step] at hd
      split at hd
      · next h => exact h
      · cases hd
    intro p hpost
    obtain ⟨k, hk⟩ := List.mem_iff_getElem?.mp hpost
    obtain ⟨y, hy, hl, -, -, hexit⟩ := hp.staffed.crew_of_post hk
    cases hx.symm.trans hy
    obtain ⟨hlt, -⟩ := List.getElem?_eq_some_iff.mp hk
    have hsome : (x.pool.exits.get? k).isSome = true :=
      List.all_eq_true.mp hended k (List.mem_range.mpr (hw ▸ hl ▸ hlt))
    rw [hexit] at hsome
    obtain ⟨crew, worker, stage, errand⟩ := p
    cases stage with
    | ended how => exact ⟨how, rfl⟩
    | _ => contradiction

/-- What a stop leaves behind that has waited for all workers. -/
structure Clean (s : Workshop) : Prop where
  /-- The receiver has no locks. -/
  unlocked : s.traffic.broker.owned s.receiver = []
  /-- A close would put nothing back. -/
  nothingLapses : ∀ e, (s.traffic.broker.lapse s.receiver).queue e = s.traffic.broker.queue e
  /-- For every delivery one settlement was called for. -/
  settledOnce : ∀ l ∈ s.deliveries, (s.settlements.map (·.1)).count l.token = 1
  /-- None of them is on its way any more. -/
  settled : ∀ (i began : Nat) (c : Broker.Settle),
    s.traffic.calls[i]? ≠ some ⟨began, .on (.settling c)⟩

theorem Quiet.clean (h : s.Quiet) (hp : s.Parts settings) (hd : s.Dealt) : s.Clean where
  unlocked := by rw [Broker.owned, h.locks, List.filter_nil]
  nothingLapses e := by
    rw [Broker.queue_lapse, Broker.owned, h.locks]
    rfl
  settledOnce l hl := by
    have htokens := hd.tokens hp.tracked
    rw [Quiet.unhandled_eq_nil h.ended, List.map_nil, List.append_nil] at htokens
    have hsettled : s.settlements.map (·.1) = s.returns.map (·.1.lockToken) := by
      rw [hd.settled, List.map_map]
      rfl
    rw [hsettled, ← htokens.count_eq]
    exact List.count_eq_one_of_mem hp.tracked.distinct (List.mem_map_of_mem hl)
  settled i began c hi := by
    have hnone := hp.attendedAt_eq_none h.ended i
    rw [Broker.attendedAt_of_getElem? hi] at hnone
    contradiction

/-- **A graceful stop leaves nothing locked**: when the wait for the workers finds that all
of them have ended, the receiver has no locks, then and ever after; so its close puts
nothing back, and for every delivery one settlement was called for. -/
theorem Reachable.drained (h : s.Reachable settings)
    (hi : s.life.calls[i]? = some ⟨q, .on (.stopping (.draining n wait d))⟩)
    (hd : (d.step s.life.now (s.life.consumer.crew n).pool).progress = .done true)
    (hl : s.Leads t) : t.Clean := by
  have hp := h.parts
  have hended := hp.ended_of_drained hi hd
  have hservice := h.inService (hp.closing_of_draining hi)
  have hquiet : s.Quiet :=
    ⟨hended, hservice.locks_eq_nil hp hended, .inl (Consumer.Life.count_pos hi rfl)⟩
  have ht := h.leads hl
  exact (hquiet.leads h hl).clean ht.parts ht.dealt

end

/-- A stop and the cancellation of the caller's token come while the handler has the first
of two messages; the worker settles both and ends. -/
def untilDrained : List Move := [
  .ask (.sendBatch "orders" [[1], [2]] {}),
  .carry 1, .carry 1, .carry 1, .carry 1, .carry 1,
  .request (.start "main"), .proceed 0, .proceed 0, .proceed 0,
  .work 0, .work 0, .work 0, .work 0, .work 0, .work 0,
  .request (.stop none), .proceed 1, .proceed 1, .proceed 1, .cancel "main",
  .handle 0 (.ok ()), .work 0, .work 0, .work 0,
  .handle 0 (.error "broken"), .work 0, .work 0, .work 0, .work 0, .work 0]

/-- The stop closes the receiver and returns. -/
def untilStopped : List Move := [
  .proceed 1, .close 1, .carry 5, .carry 5, .carry 5, .answer 1, .proceed 1]

theorem drained_atTheQueue : ∃ s t, atTheQueue.run untilDrained = some s ∧
    s.life.calls[1]? = some ⟨.stop none,
      .on (.stopping (.draining 0 (.ofSeconds 30) (.joining [0] 30000)))⟩ ∧
    s.run untilStopped = some t ∧ t.life.consumer.phase = .stopped ∧
    t.traffic.broker.closedReceivers = 1 ∧ t.deliveries.length = 2 ∧ t.Clean := by
  have hrun : ∃ s t, atTheQueue.run untilDrained = some s ∧
      s.life.calls[1]? = some ⟨.stop none,
        .on (.stopping (.draining 0 (.ofSeconds 30) (.joining [0] 30000)))⟩ ∧
      ((Pool.Shutdown.joining [0] 30000).step s.life.now (s.life.consumer.crew 0).pool).progress =
        .done true ∧
      s.run untilStopped = some t ∧ t.life.consumer.phase = .stopped ∧
      t.traffic.broker.closedReceivers = 1 ∧ t.deliveries.length = 2 :=
    ⟨_, _, rfl, rfl, rfl, rfl, rfl, rfl, rfl⟩
  obtain ⟨s, t, hs, hi, hd, ht, hphase, hclosed, hlength⟩ := hrun
  exact ⟨s, t, hs, hi, ht, hphase, hclosed, hlength,
    Reachable.drained ⟨atTheQueue, opens_atTheQueue, leads_of_run hs⟩ hi hd (leads_of_run ht)⟩

end PeekLock.Workshop
