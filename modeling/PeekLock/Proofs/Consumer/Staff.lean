import PeekLock.Proofs.Consumer.Moves
import PeekLock.Proofs.Consumer.Stops

/-!
# PeekLock.Proofs.Consumer.Staff

The parts of a workshop.

Every move of a workshop is a move of its bus, a move of its consumer, or
both, or it changes neither; so the bus and the consumer of a workshop are
what they can be by themselves, and all that holds of these holds here.
The posts are those of the one crew that was hired, by number, and a
worker has ended when its pool says so (`Staffed`).
-/

namespace PeekLock

open Identifier (counting)

/-- How a worker has ended. -/
def Worker.Stage.exit? : Worker.Stage → Option Exit
  | .ended how => some how
  | _ => none

theorem Worker.exit?_turnTo (messages : List Message) :
    (Worker.turnTo messages).exit? = none := by
  cases messages <;> rfl

/-- The posts are those of the crew. -/
inductive Staffed (crews : List Crew) (posts : List Post) : Prop where
  | none (crews : crews = []) (posts : posts = [])
  | crew (x : Crew) (crews : crews = [x]) (spawned : posts.length = x.pool.spawned)
    (each : ∀ (k : Nat) p, posts[k]? = some p →
      p.crew = 0 ∧ p.worker.number = k ∧ x.pool.exits.get? k = p.stage.exit?)

namespace Staffed

variable {crews : List Crew} {posts : List Post} {k : Nat} {p : Post}

/-- A post is one of a crew. -/
theorem crew_of_post (h : Staffed crews posts) (hk : posts[k]? = some p) :
    ∃ x, crews = [x] ∧ posts.length = x.pool.spawned ∧ p.crew = 0 ∧ p.worker.number = k ∧
      x.pool.exits.get? k = p.stage.exit? := by
  cases h with
  | none _ hp =>
    rw [hp] at hk
    contradiction
  | crew x hc hl each => exact ⟨x, hc, hl, each k p hk⟩

/-- A worker that has not ended is at work. -/
theorem isAtWork {c : Consumer} (h : Staffed c.crews posts) (hk : posts[k]? = some p)
    (hs : p.stage.exit? = .none) : c.isAtWork p.crew p.worker.number = true := by
  obtain ⟨x, hc, hl, hcrew, hnumber, hexit⟩ := h.crew_of_post hk
  obtain ⟨hlt, -⟩ := List.getElem?_eq_some_iff.mp hk
  rw [hs] at hexit
  simp [Consumer.isAtWork, hcrew, hnumber, Consumer.crew_zero hc, hc, ← hl, hlt, hexit]

/-- A worker comes to another stage; it has ended if its pool says so. -/
theorem set (h : Staffed crews posts) (hk : posts[k]? = some p) {stage : Worker.Stage}
    (errand : Errand) (hs : stage.exit? = p.stage.exit?) :
    Staffed crews (posts.set k (p.at stage errand)) := by
  obtain ⟨hlt, -⟩ := List.getElem?_eq_some_iff.mp hk
  obtain ⟨x, hc, hl, -⟩ := h.crew_of_post hk
  refine .crew x hc (List.length_set.trans hl) fun j p' hj => ?_
  by_cases hkj : k = j
  · subst hkj
    rw [List.getElem?_set_self hlt] at hj
    cases hj
    obtain ⟨y, hc', -, hcrew, hnumber, hexit⟩ := h.crew_of_post hk
    cases hc.symm.trans hc'
    exact ⟨hcrew, hnumber, hexit.trans hs.symm⟩
  · rw [List.getElem?_set_ne hkj] at hj
    obtain ⟨y, hc', -, hp⟩ := h.crew_of_post hj
    cases hc.symm.trans hc'
    exact hp

/-- A worker ends. -/
theorem finish {s : Consumer.Life} (h : Staffed s.consumer.crews posts) (hk : posts[k]? = some p)
    (how : Exit) : Staffed (s.finish p.crew p.worker.number how).consumer.crews
      (posts.set k (p.at (.ended how) .none)) := by
  obtain ⟨hlt, -⟩ := List.getElem?_eq_some_iff.mp hk
  obtain ⟨x, hc, hl, hcrew, hnumber, -⟩ := h.crew_of_post hk
  have hset : (s.finish p.crew p.worker.number how).consumer.crews =
      [{ x with pool := x.pool.finish k how }] := by
    rw [Consumer.Life.finish, hcrew, hnumber, Consumer.crew_zero hc, Consumer.setPool_zero hc]
  refine .crew _ hset (List.length_set.trans hl) fun j p' hj => ?_
  have hexits : (x.pool.finish k how).exits.get? j =
      if j = k then some how else x.pool.exits.get? j := Table.get?_put ..
  by_cases hkj : k = j
  · subst hkj
    rw [List.getElem?_set_self hlt] at hj
    cases hj
    exact ⟨hcrew, hnumber, hexits.trans (if_pos rfl)⟩
  · rw [List.getElem?_set_ne hkj] at hj
    obtain ⟨y, hc', -, hcrew', hnumber', hexit⟩ := h.crew_of_post hj
    cases hc.symm.trans hc'
    exact ⟨hcrew', hnumber', (hexits.trans (if_neg (Ne.symm hkj))).trans hexit⟩

end Staffed

/-! ## Hiring -/

/-- A new pool has workers by number, none of which has ended. -/
theorem Consumer.exits_hire (n : Nat) : (Consumer.hire n {}).exits = .empty := by
  rw [Consumer.hire_eq]

namespace Consumer.Life

variable {s : Life} {i : Nat} {q : Request} {k : Call} {c : Consumer} {p : Progress Call Outcome}

/-- Workers that were just hired are about to take their first turn. -/
theorem fresh_of_mem_hired {x : Post} (h : x ∈ s.hired i) :
    x.stage = .starting ∧ x.errand = .none := by
  unfold hired at h
  split at h
  · obtain ⟨n, -, rfl⟩ := List.mem_map.mp h
    exact ⟨rfl, rfl⟩
  · contradiction

/-- Only a start hires. -/
theorem hired_resume (hi : s.calls[i]? = some ⟨q, .on k⟩)
    (hp : ∀ n, p ≠ .done (.started (.ok n))) : (s.resume i q c p).hired i = [] := by
  unfold hired
  rw [getElem?_resume hi]
  split
  · next n heq =>
    cases heq
    exact (hp _ rfl).elim
  · rfl

/-- A start hires a crew where there is none. -/
theorem staffed_hires {settings : ConsumerSettings} (hr : s.Reachable settings)
    {posts : List Post} (h : Staffed s.consumer.crews posts) {caller : String}
    (hi : s.calls[i]? = some ⟨q, .on (.starting (.spawning caller))⟩)
    (hc : c.crews = s.consumer.crews ++ [⟨hire s.consumer.settings.workers {}, caller⟩])
    (hp : p = .done (.started (.ok s.consumer.crews.length))) :
    Staffed c.crews (posts ++ (s.resume i q c p).hired i) := by
  have hcrews := hr.orderly.crews_of_isHiring hi rfl
  rw [hcrews, List.nil_append] at hc
  have hposts : posts = [] := by
    cases h with
    | none _ hp => exact hp
    | crew x hx => rw [hcrews] at hx; contradiction
  subst hposts hp
  rw [hcrews, List.length_nil, List.nil_append, hired, getElem?_resume hi]
  simp only [resume]
  rw [crew_zero hc, handles_hire]
  refine .crew _ hc ?_ fun j x hj => ?_
  · rw [List.length_map, List.length_range]
    exact (spawned_hire _).symm
  · rw [List.getElem?_map, Option.map_eq_some_iff] at hj
    obtain ⟨n, hn, rfl⟩ := hj
    obtain ⟨hlt, rfl⟩ := List.getElem?_eq_some_iff.mp hn
    rw [List.getElem_range]
    refine ⟨rfl, rfl, ?_⟩
    show (hire s.consumer.settings.workers {}).exits.get? j = none
    rw [exits_hire]
    exact Table.get?_empty j

/-- A start or stop that goes on leaves the posts to the crew. -/
theorem staffed_resume {settings : ConsumerSettings} (hr : s.Reachable settings)
    {posts : List Post} (h : Staffed s.consumer.crews posts)
    (hi : s.calls[i]? = some ⟨q, .on k⟩) (ht : Turn s.now s.consumer k c p) :
    Staffed c.crews (posts ++ (s.resume i q c p).hired i) := by
  cases ht with
  | hires caller => exact staffed_hires hr h hi rfl rfl
  | cancels n wait ticks =>
    rw [hired_resume hi (fun _ hp => by cases hp), List.append_nil]
    obtain ⟨rfl, -, x, hx, -⟩ := hr.custody.of_draining hi
    rw [crew_zero hx, hx]
    cases h with
    | none hc =>
      rw [hx] at hc
      contradiction
    | crew y hy hl each =>
      rw [hx] at hy
      cases hy
      exact .crew _ rfl hl each
  | _ =>
    rw [hired_resume hi (fun _ hp => by cases hp), List.append_nil]
    exact h

end Consumer.Life

/-! ## The parts of a workshop -/

theorem Worker.isResting_turnTo (messages : List Message) :
    (Worker.turnTo messages).isResting = true := by
  cases messages <;> rfl

namespace Workshop

/-- What holds of the parts of a workshop. -/
structure Parts (settings : ConsumerSettings) (s : Workshop) : Prop where
  traffic : s.traffic.Reachable
  receiver : s.receiver ∈ s.traffic.receivers
  tracked : s.traffic.Tracked s.deliveries
  life : s.life.Reachable settings
  tended : Tended s.receiver s.traffic.calls s.posts
  staffed : Staffed s.life.consumer.crews s.posts
  /-- The close of the receiver is called by a stop that has come to it. -/
  closing : s.closing ≠ none → ∃ (u : Consumer.Life) (i : Nat) (q : Consumer.Request),
    u.Leads s.life ∧ u.calls[i]? = some ⟨q, .on (.stopping .closing)⟩

variable {settings : ConsumerSettings} {s t : Workshop}

/-- The errands of the workers still fit after a move. -/
theorem Turn.tended (ht : Turn s t) (h : Tended s.receiver s.traffic.calls s.posts) :
    Tended t.receiver t.traffic.calls t.posts := by
  cases ht with
  | asks q hq =>
    exact h.of_calls (Broker.attendedAt_append_of_none (Broker.Request.attended?_call hq _) _)
  | carries i began c hi hc =>
    exact h.of_calls (Broker.attendedAt_set_of_none hi (if_pos hc)
      (Broker.Call.attended?_step hc _ _ _))
  | rearranges | waits | cancels | requests | answers => exact h
  | closes => exact h.of_calls (Broker.attendedAt_append_of_none rfl _)
  | proceeds i =>
    refine h.hire fun p hp => ?_
    obtain ⟨hs, he⟩ := Consumer.Life.fresh_of_mem_hired hp
    rw [hs, he]
    exact ⟨rfl, rfl⟩
  | looks k p hk hs =>
    have he := (h.fits k p hk).call?_of_isResting (by obtain hs | hs := hs <;> rw [hs] <;> rfl)
    exact h.rest hk he rfl rfl
  | ends k p how hk hs =>
    exact h.rest hk ((h.fits k p hk).call?_of_isResting (by rw [hs]; rfl)) rfl rfl
  | receives k p most timeout hk hs =>
    refine h.begin hk ((h.fits k p hk).call?_of_isResting (by rw [hs]; rfl)) ?_ rfl
    refine .receiving _ ⟨s.receiver, most, timeout, .arriving⟩ ?_ rfl
    rw [Broker.attendedAt_append, if_pos rfl]
    rfl
  | polls k p i began c c' hk hs he hi hr hw hp =>
    refine h.goOn hk (by rw [he]; rfl) hi ?_
    rw [hs, he]
    refine .receiving i c' ?_ ((Broker.Receive.receiver_of_step hp).trans hr)
    rw [Broker.attendedAt_set hi, if_pos rfl]
    simp only [Broker.Call.step, Step.map, hp]
    rfl
  | finds k p i began c locks hk hs he hi hr hw hl hp =>
    refine h.finish hk (by rw [he]; rfl) hi ?_ (Worker.isResting_turnTo _) rfl
    simp only [Broker.Call.step, Step.map, hp]
    rfl
  | misses k p i began c e stage errand hk hs he hi hr hw hp hstage hn =>
    refine h.finish hk (by rw [he]; rfl) hi ?_ (by obtain rfl | rfl := hstage <;> rfl) hn
    simp only [Broker.Call.step, Step.map, hp]
    rfl
  | drops k p i began c stage errand hk hs he hi hstage hn =>
    exact h.finish hk (by rw [he]; rfl) hi rfl (by obtain rfl | rfl := hstage <;> rfl) hn
  | handles k p m rest result hk hs =>
    refine h.begin hk ((h.fits k p hk).call?_of_isResting (by rw [hs]; rfl)) ?_ rfl
    refine .settling _ ⟨s.receiver, m.lockToken, Worker.verdictOn result, .readingFault⟩ m _ rest
      ?_ rfl rfl rfl
    rw [Broker.attendedAt_append, if_pos rfl]
    rfl
  | presses k p i began c c' m rest hk hs he hi hr ht hp =>
    obtain ⟨hr', ht', hv'⟩ := Broker.Settle.same_of_step hp
    refine h.goOn hk (by rw [he]; rfl) hi ?_
    rw [hs, he]
    refine .settling i c' m _ rest ?_ (hr'.trans hr) (ht'.trans ht) hv'
    rw [Broker.attendedAt_set hi, if_pos rfl]
    simp only [Broker.Call.step, Step.map, hp]
    rfl
  | settles k p i began c m rest result hk hs he hi hr ht hp =>
    refine h.finish hk (by rw [he]; rfl) hi ?_ (Worker.isResting_turnTo _) rfl
    simp only [Broker.Call.step, Step.map, hp]
    rfl

/-- The bus of a workshop makes a move of its own, or none, and what it delivers is
noted. -/
theorem Turn.traffic (ht : Turn s t) (hr : s.receiver ∈ s.traffic.receivers) :
    (t.traffic = s.traffic ∧ t.deliveries = s.deliveries) ∨
      ∃ m, s.traffic.after m = some t.traffic ∧
        t.deliveries = s.deliveries ++ s.traffic.deliveries m := by
  have hbegin {q : Broker.Request} (hq : q.receiver? = some s.receiver) :
      s.traffic.after (.begin q) = some (s.traffic.accept q) := by
    simp [Broker.Traffic.after, hq, hr]
  have hnone {ds : List Lock} (hd : ds = []) : s.deliveries = s.deliveries ++ ds := by
    rw [hd, List.append_nil]
  cases ht with
  | asks q hq =>
    refine .inr ⟨.begin q, ?_, hnone rfl⟩
    cases q <;> first | rfl | contradiction
  | carries i began c hi hc hw =>
    refine .inr ⟨.advance i, Broker.Traffic.after_advance hi hw, hnone ?_⟩
    rw [Broker.Traffic.deliveries_advance hi]
    exact Broker.Call.deliveries_eq_nil hc _
  | rearranges locks hp =>
    refine .inr ⟨.rearrange locks, ?_, hnone rfl⟩
    simp [Broker.Traffic.after, List.isPerm_iff.mpr hp]
  | waits ms => exact .inr ⟨.wait ms, rfl, hnone rfl⟩
  | closes i q hi hn => exact .inr ⟨_, hbegin (q := .close s.receiver) rfl, hnone rfl⟩
  | receives k p most timeout hk hs =>
    exact .inr ⟨_, hbegin (q := .receive s.receiver most timeout) rfl, hnone rfl⟩
  | handles k p m rest result hk hs =>
    exact .inr ⟨_, hbegin (q := .settle s.receiver m.lockToken _) rfl, hnone rfl⟩
  | polls k p i began c c' hk hs he hi hr hw hp =>
    refine .inr ⟨.advance i, Broker.Traffic.after_advance hi hw, hnone ?_⟩
    rw [Broker.Traffic.deliveries_advance hi]
    exact Broker.Receive.deliveries_eq_nil fun _ hd => by rw [hp] at hd; cases hd
  | finds k p i began c locks hk hs he hi hr hw hl hp =>
    refine .inr ⟨.advance i, Broker.Traffic.after_advance hi hw, ?_⟩
    rw [Broker.Traffic.deliveries_advance hi, hl]
  | misses k p i began c e stage errand hk hs he hi hr hw hp hstage hn =>
    refine .inr ⟨.advance i, Broker.Traffic.after_advance hi hw, hnone ?_⟩
    rw [Broker.Traffic.deliveries_advance hi]
    exact Broker.Receive.deliveries_eq_nil fun _ hd => by rw [hp] at hd; cases hd
  | drops k p i began c stage errand hk hs he hi hstage hn =>
    refine .inr ⟨.drop i, ?_, hnone rfl⟩
    simp only [Broker.Traffic.after, hi]
  | presses k p i began c c' m rest hk hs he hi hr ht hp =>
    refine .inr ⟨.advance i, Broker.Traffic.after_advance hi rfl, hnone ?_⟩
    rw [Broker.Traffic.deliveries_advance hi]
    exact Broker.Settle.deliveries_eq_nil _ c
  | settles k p i began c m rest result hk hs he hi hr ht hp =>
    refine .inr ⟨.advance i, Broker.Traffic.after_advance hi rfl, hnone ?_⟩
    rw [Broker.Traffic.deliveries_advance hi]
    exact Broker.Settle.deliveries_eq_nil _ c
  | _ => exact .inl ⟨rfl, rfl⟩

/-- The consumer of a workshop makes a move of its own, or none. -/
theorem Turn.life (ht : Turn s t) (h : Staffed s.life.consumer.crews s.posts) :
    t.life = s.life ∨ ∃ m, s.life.after m = some t.life := by
  cases ht with
  | waits ms => exact .inr ⟨.wait ms, rfl⟩
  | requests q => exact .inr ⟨.begin q, rfl⟩
  | proceeds i q k c p hi ht hm => exact .inr ⟨.advance i, hm⟩
  | answers i q closed hi =>
    refine .inr ⟨.answer i closed, ?_⟩
    simp only [Consumer.Life.after, hi]
  | ends k p how hk hs =>
    refine .inr ⟨.finish p.crew p.worker.number how, ?_⟩
    have hw := h.isAtWork hk (by rw [hs]; rfl)
    simp only [Consumer.Life.after, hw, if_true]
  | _ => exact .inl rfl

/-- The posts are still those of the crew after a move. -/
theorem Turn.staffed (ht : Turn s t) (hl : s.life.Reachable settings)
    (h : Staffed s.life.consumer.crews s.posts) : Staffed t.life.consumer.crews t.posts := by
  cases ht with
  | proceeds i q k c p hi ht => exact Consumer.Life.staffed_resume hl h hi ht
  | looks k p hk hs =>
    exact h.set hk _ (by obtain hs | hs := hs <;> rw [hs] <;> rfl)
  | ends k p how hk hs => exact h.finish hk how
  | receives k p most timeout hk hs => exact h.set hk _ (by rw [hs]; rfl)
  | finds k p i began c locks hk hs =>
    exact h.set hk _ (by rw [hs, Worker.exit?_turnTo]; rfl)
  | misses k p i began c e stage errand hk hs he hi hr hw hp hstage =>
    exact h.set hk _ (by obtain rfl | rfl := hstage <;> rw [hs] <;> rfl)
  | drops k p i began c stage errand hk hs he hi hstage =>
    exact h.set hk _ (by obtain rfl | rfl := hstage <;> rw [hs] <;> rfl)
  | handles k p m rest result hk hs => exact h.set hk _ (by rw [hs]; rfl)
  | settles k p i began c m rest result hk hs =>
    exact h.set hk _ (by rw [hs, Worker.exit?_turnTo]; rfl)
  | _ => exact h

namespace Parts

/-- A move leaves the parts of a workshop what they can be. -/
theorem turn (h : s.Parts settings) (ht : Turn s t) : t.Parts settings := by
  have hlife : s.life.Leads t.life := by
    obtain hl | ⟨m, hm⟩ := ht.life h.staffed
    · rw [hl]
      exact .refl _
    · exact .step (.refl _) hm
  have hreceiver : t.receiver = s.receiver := by cases ht <;> rfl
  have hkept : s.traffic.Leads t.traffic ∧ t.traffic.Tracked t.deliveries := by
    obtain ⟨htr, hd⟩ | ⟨m, hm, hd⟩ := ht.traffic h.receiver
    · rw [htr, hd]
      exact ⟨.refl _, h.tracked⟩
    · rw [hd]
      exact ⟨.step (.refl _) hm, h.tracked.step hm⟩
  refine ⟨h.traffic.leads hkept.1, ?_, hkept.2, h.life.leads hlife, ht.tended h.tended,
    ht.staffed h.life h.staffed, ?_⟩
  · rw [hreceiver]
    exact hkept.1.mem_receivers h.receiver
  · intro hc
    by_cases hs : s.closing = none
    · cases ht with
      | closes i q hi => exact ⟨s.life, i, q, .refl _, hi⟩
      | _ => exact (hc hs).elim
    · obtain ⟨u, i, q, hu, hi⟩ := h.closing hs
      exact ⟨u, i, q, hu.trans hlife, hi⟩

end Parts

theorem isUnattended_of_isOutside {c : Broker.Call} (h : c.isOutside = true) :
    c.isUnattended = true := by
  cases c <;> first | rfl | contradiction

/-- At the beginning no call needs a worker. -/
theorem Opens.attendedAt_eq_none (h : s.Opens settings) (i : Nat) :
    Broker.attendedAt s.traffic.calls i = none := by
  refine Option.eq_none_iff_forall_ne_some.mpr fun c hc => ?_
  obtain ⟨began, hi⟩ := Broker.getElem?_of_attendedAt hc
  rw [Broker.attendedAt_of_getElem? hi] at hc
  have hout : Broker.Entry.attended? ⟨began, .on c⟩ = none :=
    if_pos (isUnattended_of_isOutside (h.outside i began c hi))
  rw [hout] at hc
  contradiction

/-- At the beginning nothing is in the hands of a call. -/
theorem Opens.hands_eq_nil (h : s.Opens settings) : s.traffic.hands = [] := by
  refine List.filterMap_eq_nil_iff.mpr fun x hx => ?_
  obtain ⟨i, hi⟩ := List.mem_iff_getElem?.mp hx
  obtain ⟨began, p⟩ := x
  cases p with
  | done o => rfl
  | on c =>
    have hout := h.outside i began c hi
    cases c <;> first | rfl | contradiction

theorem Opens.parts (h : s.Opens settings) : s.Parts settings where
  traffic := h.traffic
  receiver := h.receiver
  tracked := by
    rw [h.deliveries]
    have hlocks := h.locks
    have hhands := h.hands_eq_nil
    refine ⟨Broker.Traffic.Reachable.minted h.traffic, List.nodup_nil, nofun, nofun, ?_, ?_, ?_, ?_,
      nofun⟩
    · rw [hlocks]
      exact nofun
    · rw [hhands]
      exact nofun
    · rw [h.completed]
      exact nofun
    · rw [h.abandoned]
      exact nofun
  life := by
    obtain ⟨receiver, hl⟩ := h.life
    exact ⟨receiver, .step (m := .wait s.traffic.now) (.refl _) (congrArg some hl.symm)⟩
  tended := by
    rw [h.posts]
    refine ⟨nofun, fun i => ?_⟩
    rw [h.attendedAt_eq_none]
    rfl
  staffed := by
    obtain ⟨receiver, hl⟩ := h.life
    rw [h.posts, hl]
    exact .none rfl rfl
  closing hc := (hc h.closing).elim

/-- A consumer that was just built for a queue that is new as well. -/
def atTheQueue : Workshop where
  receiver := ⟨0, "orders"⟩
  traffic :=
    { broker := { Broker.addEntity {} "orders" with nextReceiver := 1 }
      calls := [⟨0, .done (.opened (.ok ⟨0, "orders"⟩))⟩] }
  life := .new (.ofEntity "orders") 0

theorem opens_atTheQueue : atTheQueue.Opens (.ofEntity "orders") where
  traffic :=
    have h : (Broker.Traffic.start counting).run
        [.begin (.createReceiver "orders"), .advance 0, .advance 0] = some atTheQueue.traffic := rfl
    Broker.Traffic.reachable_of_run h
  receiver := List.mem_singleton_self _
  isOpen := rfl
  faults := rfl
  locks := rfl
  completed := rfl
  abandoned := rfl
  outside i began c hi := by
    cases i with
    | zero => cases hi
    | succ i => contradiction
  life := ⟨0, rfl⟩
  posts := rfl
  closing := rfl
  deliveries := rfl
  returns := rfl
  settlements := rfl

/-- **The rule of invariants** for workshops. -/
theorem Reachable.invariant {P : Workshop → Prop} (h : s.Reachable settings)
    (start : ∀ s, s.Opens settings → P s)
    (turn : ∀ s t, s.Parts settings → Turn s t → P s → P t) : s.Parts settings ∧ P s := by
  obtain ⟨first, hopens, hl⟩ := h
  induction hl with
  | refl => exact ⟨hopens.parts, start _ hopens⟩
  | step _ hm ih =>
    obtain ⟨hparts, hp⟩ := ih
    have ht := turn_of_after hparts.tended hm
    exact ⟨hparts.turn ht, turn _ _ hparts ht hp⟩

/-- What a workshop leads to, it leads to step by step. -/
theorem Leads.trans {u : Workshop} (h : s.Leads t) (k : t.Leads u) : s.Leads u := by
  induction k with
  | refl => exact h
  | step _ hm ih => exact ih.step hm

theorem Reachable.leads (h : s.Reachable settings) (hl : s.Leads t) : t.Reachable settings := by
  obtain ⟨first, ho, hs⟩ := h
  exact ⟨first, ho, hs.trans hl⟩

/-- What some moves lead to is reached. -/
theorem leads_of_run {moves : List Move} (h : s.run moves = some t) : s.Leads t :=
  keeps_of_foldlM h (.refl s) fun _ _ _ hl hm => hl.step hm

theorem Reachable.parts (h : s.Reachable settings) : s.Parts settings :=
  (h.invariant (P := fun _ => True) (fun _ _ => trivial) fun _ _ _ _ _ => trivial).1

end Workshop

end PeekLock
