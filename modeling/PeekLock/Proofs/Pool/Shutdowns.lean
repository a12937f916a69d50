import PeekLock.Proofs.Pool.Headcount

/-!
# PeekLock.Proofs.Pool.Shutdowns

What the shutdowns of a pool tell, however many there are.

Every worker that was started is with the pool, with the shutdown on its
way, or with one that is over (`Custody`).  A shutdown waits for the workers
that it finds with the pool, and tells whether these have ended; the workers
that an earlier one has given up are not among them.  So after a shutdown
that has told that all have ended, exactly those of the given up that have
still not ended are active.
-/

namespace PeekLock.Pool.Life

/-! ## What a move can be -/

/-- A move: when it can happen, and what it leads to. -/
inductive Turn (s : Life) : Move → Life → Prop where
  | spawns (h : s.current = none) : Turn s .spawn { s with pool := s.pool.spawn.2 }
  | begins (wait : Nat) (h : s.current = none) :
    Turn s (.shutdown wait) { s with current := some (.stopping wait) }
  /-- A shutdown cancels the token and takes over the workers. -/
  | stops (wait : Nat) (h : s.current = some (.stopping wait)) :
    Turn s .advance
      { s with
        pool := { s.pool.cancel with handles := [] }
        current := some (.joining s.pool.handles (s.now + wait)) }
  /-- All of its workers have ended. -/
  | drains (workers : List Nat) (due : Nat) (h : s.current = some (.joining workers due))
    (he : s.pool.haveEnded workers = true) :
    Turn s .advance (s.conclude (.joining workers due) s.pool (some true))
  /-- The wait is over, and some of them have not ended. -/
  | givesUp (workers : List Nat) (due : Nat) (h : s.current = some (.joining workers due))
    (he : s.pool.haveEnded workers = false) (hd : due ≤ s.now) :
    Turn s .advance (s.conclude (.joining workers due) s.pool (some false))
  | drops (c : Shutdown) (h : s.current = some c) : Turn s .drop (s.conclude c s.pool none)
  | cancels : Turn s .cancel { s with pool := s.pool.cancel }
  | finishes (worker : Nat) (how : Exit) (h : s.pool.isAtWork worker = true) :
    Turn s (.finish worker how) { s with pool := s.pool.finish worker how }
  | waits (ms : Nat) : Turn s (.wait ms) { s with now := s.now + ms }

theorem turn_of_after {s t : Life} {m : Move} (h : s.after m = some t) : Turn s m t := by
  cases m with
  | spawn =>
    obtain ⟨hc, ⟨⟩⟩ := Option.ite_none_right_eq_some.mp h
    exact .spawns (Option.isNone_iff_eq_none.mp hc)
  | shutdown wait =>
    obtain ⟨hc, ⟨⟩⟩ := Option.ite_none_right_eq_some.mp h
    exact .begins wait (Option.isNone_iff_eq_none.mp hc)
  | advance =>
    simp only [after] at h
    split at h
    · next c hc =>
      obtain ⟨hr, ⟨⟩⟩ := Option.ite_none_right_eq_some.mp h
      cases c with
      | stopping wait => exact .stops wait hc
      | joining workers due =>
        simp only [Shutdown.isReady, Bool.or_eq_true, decide_eq_true_eq] at hr
        cases he : s.pool.haveEnded workers with
        | true =>
          simp only [advance, Shutdown.step, he, if_true]
          exact .drains workers due hc he
        | false =>
          simp only [advance, Shutdown.step, he]
          refine .givesUp workers due hc he (hr.resolve_left fun ht => ?_)
          rw [he] at ht
          contradiction
    · contradiction
  | drop =>
    obtain ⟨c, hc, rfl⟩ := Option.map_eq_some_iff.mp h
    exact .drops c hc
  | cancel =>
    cases h
    exact .cancels
  | finish worker how =>
    obtain ⟨hw, ⟨⟩⟩ := Option.ite_none_right_eq_some.mp h
    exact .finishes worker how hw
  | wait ms =>
    cases h
    exact .waits ms

/-- **The rule of invariants**, from a given life on. -/
theorem Leads.invariant {P : Life → Prop} {s t : Life} (h : Leads s t) (start : P s)
    (turn : ∀ u m v, Turn u m v → P u → P v) : P t := by
  induction h with
  | refl => exact start
  | step _ hm ih => exact turn _ _ _ (turn_of_after hm) ih

/-- What some moves lead to is reached. -/
theorem leads_of_run {s t : Life} {moves : List Move} (h : s.run moves = some t) : Leads s t :=
  keeps_of_foldlM h (.refl s) fun _ _ _ hl hm => hl.step hm

/-! ## The token -/

/-- The token stays cancelled. -/
theorem Turn.stopped {s t : Life} {m : Move} (h : Turn s m t) (hs : s.pool.stopped = true) :
    t.pool.stopped = true := by
  cases h with
  | stops => rfl
  | cancels => rfl
  | _ => exact hs

theorem Leads.stopped {s t : Life} (h : Leads s t) (hs : s.pool.stopped = true) :
    t.pool.stopped = true :=
  h.invariant hs fun _ _ _ ht => ht.stopped

/-! ## Where the workers are -/

/-- Every worker that was started is with the pool or with one shutdown. -/
structure Custody (s : Life) : Prop where
  accurate : s.pool.Accurate
  places : (s.pool.handles ++ s.awaited ++ s.past.flatMap (·.workers)).Perm
    (List.range s.pool.spawned)
  /-- A shutdown that waits has cancelled the token and left the pool without workers. -/
  joining : ∀ workers due, s.current = some (.joining workers due) →
    s.pool.stopped = true ∧ s.pool.handles = []
  /-- What a shutdown has told is true. -/
  told : ∀ x ∈ s.past, x.verdict = some true → s.pool.haveEnded x.workers = true

theorem custody_empty : Custody {} where
  accurate := accurate_empty
  places := .refl _
  joining := by
    intro workers due h
    cases h
  told := by
    intro x hx
    cases hx

/-- Who has ended has ended for good. -/
theorem haveEnded_finish {p : Pool} {workers : List Nat} (h : p.haveEnded workers = true)
    (worker : Nat) (how : Exit) : (p.finish worker how).haveEnded workers = true := by
  refine haveEnded_iff.mpr fun w hw => ?_
  rw [Pool.finish, Table.get?_put]
  split
  · simp
  · exact haveEnded_iff.mp h w hw

/-- Whoever has ended is not at work. -/
theorem filter_isAtWork_of_haveEnded {p : Pool} {workers : List Nat}
    (h : p.haveEnded workers = true) : workers.filter p.isAtWork = [] :=
  List.filter_eq_nil_iff.mpr fun w hw hat => haveEnded_iff.mp h w hw (isAtWork_iff.mp hat).2

section

variable {s t : Life}

/-- The end of a shutdown hands its workers on to the past. -/
theorem Custody.conclude (h : s.Custody) {c : Shutdown} (hc : s.current = some c)
    {verdict : Option Bool} (hv : verdict = some true → s.pool.haveEnded c.workers = true) :
    (s.conclude c s.pool verdict).Custody where
  accurate := h.accurate
  places := by
    have hp := h.places
    have hawaited : s.awaited = c.workers := by rw [awaited, hc]; rfl
    rw [hawaited] at hp
    refine List.Perm.trans ?_ hp
    have hpast : (s.conclude c s.pool verdict).past.flatMap (·.workers) =
        s.past.flatMap (·.workers) ++ c.workers := by
      rw [Life.conclude, List.flatMap_append, List.flatMap_singleton]
    rw [hpast, show (s.conclude c s.pool verdict).awaited = [] from rfl, List.append_nil,
      List.append_assoc]
    exact List.perm_append_comm.append_left _
  joining := by
    intro workers due hj
    cases hj
  told := by
    intro x hx hxv
    obtain hx | hx := List.mem_append.mp hx
    · exact h.told x hx hxv
    · obtain rfl := List.mem_singleton.mp hx
      exact hv hxv

/-- A move leaves every worker in one place. -/
theorem Turn.custody {m : Move} (ht : Turn s m t) (h : s.Custody) : t.Custody := by
  cases ht with
  | spawns hc =>
    refine ⟨h.accurate.spawn, ?_, ?_, h.told⟩
    · show ((s.pool.handles ++ [s.pool.spawned]) ++ s.awaited ++ s.past.flatMap (·.workers)).Perm
        (List.range (s.pool.spawned + 1))
      rw [List.range_succ, List.append_assoc, List.append_assoc]
      refine List.Perm.trans (List.perm_append_comm_assoc _ _ _) ?_
      refine (List.perm_append_comm : ([s.pool.spawned] ++ _).Perm _).trans ?_
      rw [← List.append_assoc]
      exact h.places.append_right _
    · intro workers due hj
      rw [show s.current = some (.joining workers due) from hj] at hc
      cases hc
  | begins wait hc =>
    refine ⟨h.accurate, ?_, ?_, h.told⟩
    · have hp := h.places
      rwa [awaited, hc] at hp
    · intro workers due hj
      cases hj
  | stops wait hc =>
    refine ⟨h.accurate.of_eq rfl rfl rfl, ?_, fun _ _ _ => ⟨rfl, rfl⟩, h.told⟩
    have hp := h.places
    rw [awaited, hc] at hp
    simpa [awaited, Shutdown.workers, Pool.cancel] using hp
  | drains workers due hc he => exact h.conclude hc fun _ => he
  | givesUp workers due hc => exact h.conclude hc (by simp)
  | drops c hc => exact h.conclude hc (by simp)
  | cancels =>
    exact ⟨h.accurate.cancel, h.places, fun ws due hj => ⟨rfl, (h.joining ws due hj).2⟩, h.told⟩
  | finishes worker how hw =>
    exact ⟨h.accurate.finish hw how, h.places, h.joining,
      fun x hx hv => haveEnded_finish (h.told x hx hv) worker how⟩
  | waits ms => exact ⟨h.accurate, h.places, h.joining, h.told⟩

theorem Reachable.custody (h : s.Reachable) : s.Custody :=
  h.invariant custody_empty fun _ _ _ ht => ht.custody

/-! ## What a shutdown tells -/

/-- The workers that shutdowns have taken over and not seen end. -/
def givenUp (s : Life) : List Nat := (s.past.filter (·.verdict ≠ some true)).flatMap (·.workers)

/-- The shutdown on its way returns with the next move, and tells whether its workers have
all ended. -/
def Tells (s t : Life) (all : Bool) : Prop :=
  s.after .advance = some t ∧ ∃ workers, t.past = s.past ++ [⟨workers, some all⟩]

/-- Whom a shutdown has seen end is not at work. -/
theorem Custody.filter_past (h : s.Custody) :
    (s.past.flatMap (·.workers)).filter s.pool.isAtWork =
      s.givenUp.filter s.pool.isAtWork := by
  have htold := h.told
  rw [givenUp]
  generalize s.past = past at htold ⊢
  induction past with
  | nil => rfl
  | cons x past ih =>
    have hrest := ih fun y hy => htold y (List.mem_cons_of_mem x hy)
    by_cases hx : x.verdict = some true
    · have hnone : x.workers.filter s.pool.isAtWork = [] :=
        filter_isAtWork_of_haveEnded (htold x List.mem_cons_self hx)
      rw [List.flatMap_cons, List.filter_append, hnone, List.nil_append, hrest,
        List.filter_cons_of_neg (by simp [hx])]
    · rw [List.flatMap_cons, List.filter_append, hrest, List.filter_cons_of_pos (by simp [hx]),
        List.flatMap_cons, List.filter_append]

/-- **Who is active**: of the workers that the pool has, that are waited for, or that were
given up, those that have not ended. -/
theorem Custody.active_eq (h : s.Custody) : s.pool.active =
    ((s.pool.handles ++ s.awaited ++ s.givenUp).filter s.pool.isAtWork).length := by
  have hperm := h.places.filter s.pool.isAtWork
  rw [List.filter_append, h.filter_past, ← List.filter_append] at hperm
  rw [h.accurate.active, atWork, hperm.length_eq]

/-- What a shutdown tells it has found out when its wait was over. -/
theorem Tells.joining {all : Bool} (h : s.Tells t all) :
    ∃ workers due, s.current = some (.joining workers due) ∧
      t = s.conclude (.joining workers due) s.pool (some all) ∧
      s.pool.haveEnded workers = all ∧ (all = false → due ≤ s.now) := by
  obtain ⟨hm, ws, hpast⟩ := h
  cases turn_of_after hm with
  | stops wait hc =>
    have hlength := congrArg List.length hpast
    rw [List.length_append] at hlength
    exact absurd hlength (Nat.ne_of_lt (Nat.lt_succ_self _))
  | drains workers due hc he =>
    obtain ⟨⟨⟩⟩ := List.append_cancel_left hpast
    exact ⟨workers, due, hc, rfl, he, by simp⟩
  | givesUp workers due hc he hd =>
    obtain ⟨⟨⟩⟩ := List.append_cancel_left hpast
    exact ⟨workers, due, hc, rfl, he, fun _ => hd⟩

/-- It can return when its workers have ended or its time is up, and not before. -/
theorem exists_tells_iff {workers : List Nat} {due : Nat}
    (hc : s.current = some (.joining workers due)) (all : Bool) :
    (∃ t, s.Tells t all) ↔ s.pool.haveEnded workers = all ∧ (all = false → due ≤ s.now) := by
  constructor
  · rintro ⟨t, ht⟩
    obtain ⟨ws, d, hc', -, he, hd⟩ := ht.joining
    cases hc.symm.trans hc'
    exact ⟨he, hd⟩
  · rintro ⟨he, hd⟩
    have hready : (Shutdown.joining workers due).isReady s.now s.pool = true := by
      cases all with
      | true => simp only [Shutdown.isReady, he, Bool.true_or]
      | false => simp only [Shutdown.isReady, decide_eq_true (hd rfl), Bool.or_true]
    have hstep : s.advance (.joining workers due) =
        s.conclude (.joining workers due) s.pool (some all) := by
      cases all <;> simp [advance, Shutdown.step, he]
    refine ⟨s.conclude (.joining workers due) s.pool (some all), ?_, workers, rfl⟩
    simp only [after, hc, if_pos hready, hstep]

/-- A shutdown that has told that all have ended leaves those at work that were given up
before. -/
theorem Custody.active_of_tells (h : s.Custody) (ht : s.Tells t true) :
    t.givenUp = s.givenUp ∧ t.pool.active = (s.givenUp.filter t.pool.isAtWork).length := by
  obtain ⟨workers, due, hc, rfl, he, -⟩ := ht.joining
  have hactive := h.active_eq
  rw [(h.joining workers due hc).2, awaited, hc, List.nil_append, List.filter_append,
    show Option.elim (some (Shutdown.joining workers due)) [] Shutdown.workers = workers from rfl,
    filter_isAtWork_of_haveEnded he, List.nil_append] at hactive
  refine ⟨?_, hactive⟩
  rw [givenUp, givenUp, Life.conclude, List.filter_append, List.filter_cons_of_neg (by simp),
    List.filter_nil, List.append_nil]

/-- Whom a shutdown has given up was started. -/
theorem Custody.lt_of_mem_givenUp (h : s.Custody) {w : Nat} (hw : w ∈ s.givenUp) :
    w < s.pool.spawned := by
  obtain ⟨x, hx, hwx⟩ := List.mem_flatMap.mp hw
  have hpast : w ∈ s.past.flatMap (·.workers) :=
    List.mem_flatMap.mpr ⟨x, (List.mem_filter.mp hx).1, hwx⟩
  exact List.mem_range.mp (h.places.subset (List.mem_append_right _ hpast))

/-- Whom a shutdown waits for was started. -/
theorem Custody.lt_of_mem_awaited (h : s.Custody) {c : Shutdown} (hc : s.current = some c)
    {w : Nat} (hw : w ∈ c.workers) : w < s.pool.spawned := by
  have hawaited : s.awaited = c.workers := by rw [awaited, hc]; rfl
  rw [← hawaited] at hw
  exact List.mem_range.mp
    (h.places.subset (List.mem_append_left _ (List.mem_append_right _ hw)))

/-- Nobody is active where all workers have ended. -/
theorem active_eq_zero_iff {p : Pool} (h : p.Accurate) :
    p.active = 0 ↔ ∀ w < p.spawned, p.exits.get? w ≠ none := by
  rw [h.active, List.length_eq_zero_iff, atWork, List.filter_eq_nil_iff]
  simp only [List.mem_range, isAtWork_iff, not_and]
  exact ⟨fun hp w hw => hp w hw hw, fun hp w hw _ => hp w hw⟩

/-- After a shutdown that has told that all have ended nobody is active if those that were
given up before have ended too. -/
theorem Custody.active_eq_zero_iff_of_tells (h : s.Custody) (ht : s.Tells t true) :
    t.pool.active = 0 ↔ t.pool.haveEnded s.givenUp = true := by
  rw [(h.active_of_tells ht).2]
  obtain ⟨ws, due, -, rfl, -, -⟩ := ht.joining
  rw [List.length_eq_zero_iff, List.filter_eq_nil_iff, haveEnded_iff]
  refine forall₂_congr fun w hw => ?_
  rw [isAtWork_iff, not_and]
  exact imp_iff_right (h.lt_of_mem_givenUp hw)

/-- After one that has told that they have not somebody is. -/
theorem Custody.active_pos_of_tells (h : s.Custody) (ht : s.Tells t false) : 0 < t.pool.active := by
  obtain ⟨workers, due, hc, rfl, he, -⟩ := ht.joining
  refine Nat.pos_of_ne_zero fun hzero => ?_
  have hall := (active_eq_zero_iff h.accurate).mp hzero
  have hended : s.pool.haveEnded workers = true :=
    haveEnded_iff.mpr fun w hw => hall w (h.lt_of_mem_awaited hc hw)
  rw [hended] at he
  contradiction

/-- What is counted, what the token does, and what the shutdowns of a pool tell. -/
structure Shutdowns (s : Life) : Prop where
  /-- The number of active workers is that of those that have not ended. -/
  counted : s.pool.active = s.pool.atWork.length
  /-- It never goes below zero. -/
  positive : ∀ worker how t, s.after (.finish worker how) = some t →
    t.pool.active + 1 = s.pool.active
  /-- The first step of a shutdown cancels the token, for good. -/
  stopped : ∀ t u, s.after .advance = some t → t.Leads u → u.pool.stopped = true
  /-- With that step it takes over all workers that the pool has. -/
  begins : ∀ wait, s.current = some (.stopping wait) → ∃ t, s.after .advance = some t ∧
    t.current = some (.joining s.pool.handles (s.now + wait)) ∧ t.pool.handles = []
  /-- It can return when all of these have ended or its time is up, and not before. -/
  returns : ∀ workers due all, s.current = some (.joining workers due) →
    ((∃ t, s.Tells t all) ↔ s.pool.haveEnded workers = all ∧ (all = false → due ≤ s.now))
  /-- When it has told that all have ended, those of the given up are active that have
  still not ended. -/
  drained : ∀ t, s.Tells t true →
    t.givenUp = s.givenUp ∧ t.pool.active = (s.givenUp.filter t.pool.isAtWork).length
  /-- All workers have ended then if those that were given up have. -/
  finished : ∀ t, s.Tells t true →
    (t.pool.active = 0 ↔ t.pool.haveEnded s.givenUp = true) ∧
    (t.pool.active = 0 ↔ ∀ w < t.pool.spawned, t.pool.exits.get? w ≠ none)
  /-- When it has told that they have not, its time was up, and somebody is active. -/
  timedOut : ∀ t, s.Tells t false → 0 < t.pool.active ∧
    ∃ workers due, s.current = some (.joining workers due) ∧ due ≤ s.now

/-- **The shutdowns of a pool**, whatever is started in between and whatever the workers
do. -/
theorem Reachable.shutdowns (h : s.Reachable) : s.Shutdowns where
  counted := h.custody.accurate.active
  positive worker how t hm := by
    cases turn_of_after hm with
    | finishes _ _ hw => exact h.custody.accurate.active_finish hw how
  stopped t u hm htu := by
    refine htu.stopped ?_
    cases turn_of_after hm with
    | stops => rfl
    | drains workers due hc => exact (h.custody.joining workers due hc).1
    | givesUp workers due hc => exact (h.custody.joining workers due hc).1
  begins wait hc := ⟨_, by simp only [after, hc]; rfl, rfl, rfl⟩
  returns workers due all hc := exists_tells_iff hc all
  drained t ht := h.custody.active_of_tells ht
  finished t ht := by
    have ht' : t.Reachable := h.step ht.1
    exact ⟨h.custody.active_eq_zero_iff_of_tells ht, active_eq_zero_iff ht'.custody.accurate⟩
  timedOut t ht := by
    obtain ⟨workers, due, hc, -, -, hd⟩ := ht.joining
    exact ⟨h.custody.active_pos_of_tells ht, workers, due, hc, hd rfl⟩

end

/-- One of three workers outlasts the first shutdown and ends before the second, which
takes over a fourth. -/
def outlasting : List Move := [
  .spawn, .spawn, .spawn, .finish 0 .returned, .shutdown 50, .advance,
  .finish 1 (.panicked "broken"), .wait 50, .advance,
  .spawn, .finish 2 .returned, .shutdown 10, .advance, .finish 3 .returned]

theorem shutdowns_outlasting : ∃ s t, run {} outlasting = some s ∧ s.givenUp = [0, 1, 2] ∧
    s.Tells t true ∧ t.pool.active = 0 ∧ s.Shutdowns := by
  have hrun : ∃ s t, run {} outlasting = some s ∧ s.givenUp = [0, 1, 2] ∧ s.Tells t true ∧
      t.pool.active = 0 := ⟨_, _, rfl, rfl, ⟨rfl, _, rfl⟩, rfl⟩
  obtain ⟨s, t, hs, hgiven, ht, hactive⟩ := hrun
  exact ⟨s, t, hs, hgiven, ht, hactive, Reachable.shutdowns (leads_of_run hs)⟩

/-- A worker that never ends outlasts the first shutdown; then comes a second. -/
def stuck : List Move := [
  .spawn, .shutdown 50, .advance, .wait 50, .advance, .shutdown 50, .advance]

theorem active_after_drained : ∃ s t, run {} stuck = some s ∧ s.Reachable ∧
    s.past.map (·.verdict) = [some false] ∧ s.Tells t true ∧
    t.pool.active = 1 ∧ t.pool.isAtWork 0 = true := by
  have hrun : ∃ s t, run {} stuck = some s ∧ s.past.map (·.verdict) = [some false] ∧
      s.Tells t true ∧ t.pool.active = 1 ∧ t.pool.isAtWork 0 = true :=
    ⟨_, _, rfl, rfl, ⟨rfl, _, rfl⟩, rfl, rfl⟩
  obtain ⟨s, t, hs, hpast, ht⟩ := hrun
  exact ⟨s, t, hs, leads_of_run hs, hpast, ht⟩

end PeekLock.Pool.Life
