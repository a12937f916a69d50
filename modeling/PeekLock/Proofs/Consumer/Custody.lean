import PeekLock.Proofs.Consumer.Turns

/-!
# PeekLock.Proofs.Consumer.Custody

Who may do what to a consumer, and where its crew is.

The calls at a certain point are counted.  One start at most has the slot,
one stop at most has moved the consumer on to stopping, and there is one
crew at most, that is there already or about to be hired (`Orderly`).  That
crew is in the slot until a stop takes it out, and the slot stays empty
from then on (`Custody`).
-/

namespace PeekLock.Consumer

/-! ## Points -/

/-- A start that has the slot. -/
def holdsSlot : Progress Call Outcome → Bool
  | .on (.starting (.switching _)) => true
  | .on (.starting (.spawning _)) => true
  | .on (.starting .refusing) => true
  | _ => false

/-- A start that is about to hire a crew. -/
def isHiring : Progress Call Outcome → Bool
  | .on (.starting (.spawning _)) => true
  | _ => false

/-- A start that has hired a crew. -/
def hasHired : Progress Call Outcome → Bool
  | .done (.started (.ok _)) => true
  | _ => false

/-- A stop that has moved the consumer on to stopping and is not over. -/
def inCharge : Progress Call Outcome → Bool
  | .on (.stopping (.locking _)) => true
  | .on (.stopping (.draining ..)) => true
  | .on (.stopping .closing) => true
  | .on (.stopping (.storing _)) => true
  | _ => false

/-- A stop in charge that has emptied the slot. -/
def hasEmptied : Progress Call Outcome → Bool
  | .on (.stopping (.draining ..)) => true
  | .on (.stopping .closing) => true
  | .on (.stopping (.storing _)) => true
  | _ => false

theorem holdsSlot_of_isHiring {p : Progress Call Outcome} (h : isHiring p = true) :
    holdsSlot p = true := by
  unfold isHiring at h
  split at h
  · rfl
  · contradiction

theorem inCharge_of_hasEmptied {p : Progress Call Outcome} (h : hasEmptied p = true) :
    inCharge p = true := by
  unfold hasEmptied at h
  split at h
  · rfl
  · rfl
  · rfl
  · contradiction

namespace Life

/-- How many calls have come to a point. -/
def count (f : Progress Call Outcome → Bool) (s : Life) : Nat :=
  s.calls.countP fun x => f x.progress

/-- A turn takes a call from one point to another. -/
theorem count_resume (f : Progress Call Outcome → Bool) {s : Life} {i : Nat} {q : Request}
    {k : Call} (hi : s.calls[i]? = some ⟨q, .on k⟩) (c : Consumer) (p : Progress Call Outcome) :
    (s.resume i q c p).count f + (if f (.on k) then 1 else 0) = s.count f + if f p then 1 else 0 :=
  countP_set_add (fun x : Entry => f x.progress) hi ⟨q, p⟩

theorem count_resume_of_eq {f : Progress Call Outcome → Bool} {s : Life} {i : Nat} {q : Request}
    {k : Call} {c : Consumer} {p : Progress Call Outcome} (hi : s.calls[i]? = some ⟨q, .on k⟩)
    (hf : f p = f (.on k)) : (s.resume i q c p).count f = s.count f := by
  have hc := count_resume f hi c p
  rw [hf] at hc
  omega

/-- A call begins at none of the points. -/
theorem count_accept {f : Progress Call Outcome → Bool} {q : Request} (hf : f (.on q.call) = false)
    (s : Life) : (s.accept q).count f = s.count f := by
  rw [count, accept, List.countP_append, List.countP_singleton, if_neg (by simp [hf])]
  rfl

theorem count_pos {f : Progress Call Outcome → Bool} {s : Life} {i : Nat} {x : Entry}
    (hi : s.calls[i]? = some x) (hx : f x.progress = true) : 0 < s.count f :=
  List.countP_pos_iff.mpr ⟨x, List.mem_of_getElem? hi, hx⟩

theorem count_mono {f g : Progress Call Outcome → Bool} (h : ∀ p, f p = true → g p = true)
    (s : Life) : s.count f ≤ s.count g :=
  List.countP_mono_left fun x _ => h x.progress

/-- One start has the slot, one stop is in charge, and there is one crew, at most. -/
structure Orderly (s : Life) : Prop where
  held : s.count holdsSlot = if s.consumer.slotHeld then 1 else 0
  oneCrew : s.count isHiring + s.consumer.crews.length ≤ 1
  moved : s.count isHiring + s.consumer.crews.length ≤ s.consumer.phase.rank
  hired : s.count hasHired = s.consumer.crews.length
  charge : s.count inCharge = if s.consumer.phase = .stopping then 1 else 0
  emptied : 0 < s.count hasEmptied → s.count isHiring = 0
  stopped : s.consumer.phase = .stopped → s.count isHiring = 0

namespace Orderly

variable {s : Life} {i : Nat} {q : Request} {k : Call} {c : Consumer} {p : Progress Call Outcome}

theorem held_turn (h : s.Orderly) (hi : s.calls[i]? = some ⟨q, .on k⟩)
    (ht : Turn s.now s.consumer k c p) :
    (s.resume i q c p).count holdsSlot = if c.slotHeld then 1 else 0 := by
  have hc := count_resume holdsSlot hi c p
  have hh := h.held
  generalize (s.resume i q c p).count holdsSlot = n at hc ⊢
  cases ht with
  | enters _ hf => simp [holdsSlot, hf] at hc hh ⊢; omega
  | hires => simp [holdsSlot] at hc ⊢; split at hh <;> omega
  | isRefused => simp [holdsSlot] at hc ⊢; split at hh <;> omega
  | _ => simp [holdsSlot] at hc ⊢; omega

theorem oneCrew_turn (h : s.Orderly) (hi : s.calls[i]? = some ⟨q, .on k⟩)
    (ht : Turn s.now s.consumer k c p) :
    (s.resume i q c p).count isHiring + c.crews.length ≤ 1 := by
  have hc := count_resume isHiring hi c p
  have hh := h.oneCrew
  generalize (s.resume i q c p).count isHiring = n at hc ⊢
  cases ht with
  | switches _ hp =>
    have hm := h.moved
    rw [hp, Phase.rank] at hm
    simp [isHiring] at hc ⊢
    omega
  | _ => simp [isHiring] at hc ⊢; omega

theorem moved_turn (h : s.Orderly) (hi : s.calls[i]? = some ⟨q, .on k⟩)
    (ht : Turn s.now s.consumer k c p) :
    (s.resume i q c p).count isHiring + c.crews.length ≤ c.phase.rank := by
  have hc := count_resume isHiring hi c p
  have hh := h.moved
  have hr := ht.rank_le
  generalize (s.resume i q c p).count isHiring = n at hc ⊢
  cases ht with
  | switches _ hp =>
    rw [hp, Phase.rank] at hh
    simp [isHiring, Phase.rank] at hc ⊢
    omega
  | _ => simp [isHiring] at hc hr ⊢; omega

theorem hired_turn (h : s.Orderly) (hi : s.calls[i]? = some ⟨q, .on k⟩)
    (ht : Turn s.now s.consumer k c p) :
    (s.resume i q c p).count hasHired = c.crews.length := by
  have hc := count_resume hasHired hi c p
  have hh := h.hired
  generalize (s.resume i q c p).count hasHired = n at hc ⊢
  cases ht <;> simp [hasHired] at hc ⊢ <;> omega

theorem charge_turn (h : s.Orderly) (hi : s.calls[i]? = some ⟨q, .on k⟩)
    (ht : Turn s.now s.consumer k c p) :
    (s.resume i q c p).count inCharge = if c.phase = .stopping then 1 else 0 := by
  have hc := count_resume inCharge hi c p
  have hh := h.charge
  generalize (s.resume i q c p).count inCharge = n at hc ⊢
  cases ht with
  | switches _ hp => simp [inCharge, hp] at hc hh ⊢; omega
  | claimsRunning _ hp => simp [inCharge, hp] at hc hh ⊢; omega
  | claimsCreated _ hp => simp [inCharge, hp] at hc hh ⊢; omega
  | stores => simp [inCharge] at hc ⊢; split at hh <;> omega
  | _ => simp [inCharge] at hc ⊢; omega

/-- Where nobody has the slot, nobody is about to hire. -/
theorem isHiring_eq_zero (h : s.Orderly) (hh : s.consumer.slotHeld = false) :
    s.count isHiring = 0 := by
  have hle := count_mono (f := isHiring) (g := holdsSlot) (fun _ => holdsSlot_of_isHiring) s
  have hheld := h.held
  rw [hh] at hheld
  simp at hheld
  omega

theorem emptied_turn (h : s.Orderly) (hi : s.calls[i]? = some ⟨q, .on k⟩)
    (ht : Turn s.now s.consumer k c p) :
    0 < (s.resume i q c p).count hasEmptied → (s.resume i q c p).count isHiring = 0 := by
  have hc := count_resume isHiring hi c p
  have he := count_resume hasEmptied hi c p
  have hh := h.emptied
  generalize (s.resume i q c p).count isHiring = n at hc ⊢
  generalize (s.resume i q c p).count hasEmptied = m at he ⊢
  cases ht with
  | switches _ hp =>
    -- the consumer was created only, so no stop is in charge
    have hcharge := h.charge
    have hle := count_mono (f := hasEmptied) (g := inCharge) (fun _ => inCharge_of_hasEmptied) s
    rw [hp] at hcharge
    simp [hasEmptied] at he hcharge
    omega
  | findsNone _ hf =>
    have hz := h.isHiring_eq_zero hf
    simp [isHiring] at hc
    omega
  | takes _ _ hf =>
    have hz := h.isHiring_eq_zero hf
    simp [isHiring] at hc
    omega
  | _ => simp [isHiring, hasEmptied] at hc he; omega

theorem stopped_turn (h : s.Orderly) (hi : s.calls[i]? = some ⟨q, .on k⟩)
    (ht : Turn s.now s.consumer k c p) :
    c.phase = .stopped → (s.resume i q c p).count isHiring = 0 := by
  have hc := count_resume isHiring hi c p
  generalize (s.resume i q c p).count isHiring = n at hc ⊢
  cases ht with
  | stores =>
    intro _
    have hz := h.emptied (count_pos hi rfl)
    simp [isHiring] at hc
    omega
  | switches => nofun
  | claimsRunning => nofun
  | claimsCreated => nofun
  | _ =>
    intro hp
    have hz := h.stopped hp
    simp [isHiring] at hc
    omega

theorem turn (h : s.Orderly) (hi : s.calls[i]? = some ⟨q, .on k⟩)
    (ht : Turn s.now s.consumer k c p) : (s.resume i q c p).Orderly where
  held := h.held_turn hi ht
  oneCrew := h.oneCrew_turn hi ht
  moved := h.moved_turn hi ht
  hired := h.hired_turn hi ht
  charge := h.charge_turn hi ht
  emptied := h.emptied_turn hi ht
  stopped := h.stopped_turn hi ht

/-- Where no call comes to a point or leaves one, order is kept. -/
theorem of_frame {t : Life} (h : s.Orderly)
    (counts : ∀ f, (∀ q : Request, f (.on q.call) = false) → t.count f = s.count f)
    (slotHeld : t.consumer.slotHeld = s.consumer.slotHeld)
    (crews : t.consumer.crews.length = s.consumer.crews.length)
    (phase : t.consumer.phase = s.consumer.phase) : t.Orderly := by
  have hholds := counts holdsSlot fun q => by cases q <;> rfl
  have hhiring := counts isHiring fun q => by cases q <;> rfl
  have hhired := counts hasHired fun q => by cases q <;> rfl
  have hcharge := counts inCharge fun q => by cases q <;> rfl
  have hemptied := counts hasEmptied fun q => by cases q <;> rfl
  constructor
  · rw [hholds, slotHeld]
    exact h.held
  · rw [hhiring, crews]
    exact h.oneCrew
  · rw [hhiring, crews, phase]
    exact h.moved
  · rw [hhired, crews]
    exact h.hired
  · rw [hcharge, phase]
    exact h.charge
  · rw [hhiring, hemptied]
    exact h.emptied
  · rw [hhiring, phase]
    exact h.stopped

end Orderly

/-- In every life that can come about there is order. -/
theorem Reachable.orderly {settings : ConsumerSettings} {s : Life} (h : s.Reachable settings) :
    s.Orderly := by
  obtain ⟨receiver, h⟩ := h
  refine h.invariant (P := Orderly) ?_ ?_ ?_ ?_ ?_
  · exact ⟨rfl, Nat.zero_le 1, Nat.le_refl 0, rfl, rfl, fun _ => rfl, fun _ => rfl⟩
  · exact fun t q ih => ih.of_frame (fun f hf => count_accept (hf q) t) rfl rfl rfl
  · exact fun t i q k c p _ hi ht ih => ih.turn hi ht
  · exact fun t crew worker how _ ih => ih.of_frame (fun _ _ => rfl) rfl (length_setPool ..) rfl
  · exact fun t ms ih => ih.of_frame (fun _ _ => rfl) rfl rfl rfl

/-- Two stops are never in charge at one time. -/
theorem Orderly.eq_of_inCharge {s : Life} (h : s.Orderly) {i j : Nat} {x y : Entry}
    (hi : s.calls[i]? = some x) (hx : inCharge x.progress = true) (hj : s.calls[j]? = some y)
    (hy : inCharge y.progress = true) : i = j := by
  have hle : s.count inCharge ≤ 1 := by
    rw [h.charge]
    split <;> omega
  exact eq_of_countP_le_one hle hi hx hj hy

/-- Where a crew is about to be hired, there is none. -/
theorem Orderly.crews_of_isHiring {s : Life} (h : s.Orderly) {i : Nat} {x : Entry}
    (hi : s.calls[i]? = some x) (hx : isHiring x.progress = true) : s.consumer.crews = [] := by
  have hpos := count_pos hi hx
  have hone := h.oneCrew
  exact List.eq_nil_of_length_eq_zero (by omega)

/-- While a stop is in charge, the consumer is stopping. -/
theorem Orderly.phase_of_inCharge {s : Life} (h : s.Orderly) {i : Nat} {x : Entry}
    (hi : s.calls[i]? = some x) (hx : inCharge x.progress = true) :
    s.consumer.phase = .stopping := by
  have hpos := count_pos hi hx
  have hcharge := h.charge
  split at hcharge
  · next hp => exact hp
  · omega

/-- Once a stop has emptied the slot, there is such a stop until the consumer is
stopped for good. -/
theorem emptied_of_turn {s : Life} {i : Nat} {q : Request} {k : Call} {c : Consumer}
    {p : Progress Call Outcome} (hi : s.calls[i]? = some ⟨q, .on k⟩)
    (ht : Turn s.now s.consumer k c p)
    (h : 0 < s.count hasEmptied ∨ s.consumer.phase = .stopped) :
    0 < (s.resume i q c p).count hasEmptied ∨ c.phase = .stopped := by
  obtain h | h := h
  · have hc := count_resume hasEmptied hi c p
    generalize (s.resume i q c p).count hasEmptied = n at hc ⊢
    cases ht with
    | stores => exact .inr rfl
    | _ =>
      refine .inl ?_
      simp [hasEmptied] at hc
      omega
  · exact .inr (ht.phase_of_stopped h)

/-! ## The crew -/

/-- What a stop knows about the crew that it waits for. -/
def Drains (workers : Nat) (x : Crew) : Pool.Shutdown → Prop
  | .stopping _ => x.pool.handles = List.range workers
  | .joining joined _ => joined = List.range workers ∧ x.pool.stopped = true

/-- Where the crew is. -/
inductive Custody (s : Life) : Prop where
  /-- Nobody was hired. -/
  | none (crews : s.consumer.crews = []) (slot : s.consumer.slot = .none)
    (draining : ∀ (i : Nat) q n wait d,
      s.calls[i]? ≠ some ⟨q, .on (.stopping (.draining n wait d))⟩)
  /-- The crew is in the slot, and no stop has come there. -/
  | inSlot (x : Crew) (crews : s.consumer.crews = [x])
    (spawned : x.pool.spawned = s.consumer.settings.workers) (slot : s.consumer.slot = some 0)
    (handles : x.pool.handles = List.range s.consumer.settings.workers)
    (emptied : s.count hasEmptied = 0) (phase : s.consumer.phase ≠ .stopped)
  /-- A stop has taken the crew, or it is over. -/
  | taken (x : Crew) (crews : s.consumer.crews = [x])
    (spawned : x.pool.spawned = s.consumer.settings.workers) (slot : s.consumer.slot = .none)
    (emptied : 0 < s.count hasEmptied ∨ s.consumer.phase = .stopped)
    (draining : ∀ (i : Nat) q n wait d,
      s.calls[i]? = some ⟨q, .on (.stopping (.draining n wait d))⟩ →
        n = 0 ∧ Drains s.consumer.settings.workers x d)

namespace Custody

variable {s : Life} {i : Nat} {q : Request} {k : Call} {c : Consumer} {p : Progress Call Outcome}

theorem of_frame {t : Life} (h : s.Custody) (settings : t.consumer.settings = s.consumer.settings)
    (crews : t.consumer.crews = s.consumer.crews) (slot : t.consumer.slot = s.consumer.slot)
    (stopped : s.consumer.phase = .stopped → t.consumer.phase = .stopped)
    (not_stopped : t.consumer.phase = .stopped → s.consumer.phase = .stopped)
    (emptied : t.count hasEmptied = s.count hasEmptied)
    (draining : ∀ (i : Nat) q n wait d,
      t.calls[i]? = some ⟨q, .on (.stopping (.draining n wait d))⟩ →
        s.calls[i]? = some ⟨q, .on (.stopping (.draining n wait d))⟩) : t.Custody := by
  cases h with
  | none hc hs hd =>
    exact .none (crews.trans hc) (slot.trans hs) fun i q n wait d hi =>
      hd i q n wait d (draining i q n wait d hi)
  | inSlot x hc hw hs hh he hp =>
    exact .inSlot x (crews.trans hc) (settings ▸ hw) (slot.trans hs) (settings ▸ hh)
      (emptied.trans he) fun hp' => hp (not_stopped hp')
  | taken x hc hw hs he hd =>
    refine .taken x (crews.trans hc) (settings ▸ hw) (slot.trans hs) ?_ fun i q n wait d hi => ?_
    · rw [emptied]
      exact he.imp_right stopped
    · rw [settings]
      exact hd i q n wait d (draining i q n wait d hi)

/-- Where a call is drained after a turn, it was before, or it took the turn. -/
theorem draining_of_resume (hi : s.calls[i]? = some ⟨q, .on k⟩)
    (hp : ∀ n wait d, p ≠ .on (.stopping (.draining n wait d))) (j : Nat) (q' : Request) (n : Nat)
    (wait : Duration) (d : Pool.Shutdown)
    (hj : (s.resume i q c p).calls[j]? = some ⟨q', .on (.stopping (.draining n wait d))⟩) :
    s.calls[j]? = some ⟨q', .on (.stopping (.draining n wait d))⟩ := by
  obtain ⟨-, heq⟩ | ⟨-, hj⟩ := entry_of_resume hi hj
  · injection heq with _ heq
    exact (hp n wait d heq.symm).elim
  · exact hj

/-- A start hires where there is no crew. -/
theorem hires (ho : s.Orderly) {caller : String}
    (hi : s.calls[i]? = some ⟨q, .on (.starting (.spawning caller))⟩) :
    (s.resume i q
      { s.consumer with
        crews := s.consumer.crews ++ [⟨hire s.consumer.settings.workers {}, caller⟩]
        slot := some s.consumer.crews.length
        slotHeld := false }
      (.done (.started (.ok s.consumer.crews.length)))).Custody := by
  -- the start itself is counted, so there is neither a crew nor a stop past the slot
  have hpos : 0 < s.count isHiring := count_pos hi rfl
  have hcrews : s.consumer.crews = [] := ho.crews_of_isHiring hi rfl
  have hemptied : s.count hasEmptied = 0 := by
    have := ho.emptied
    omega
  refine .inSlot ⟨hire s.consumer.settings.workers {}, caller⟩ ?_ (spawned_hire _) ?_
    (handles_hire _) ?_ ?_
  · show s.consumer.crews ++ _ = _
    rw [hcrews]
    rfl
  · show some s.consumer.crews.length = _
    rw [hcrews]
    rfl
  · exact Eq.trans (count_resume_of_eq hi (by rfl)) hemptied
  · intro hp
    have := ho.stopped hp
    omega

/-- A stop that comes to the slot is the first. -/
theorem emptied_eq_zero (ho : s.Orderly) {d : Option Duration}
    (hi : s.calls[i]? = some ⟨q, .on (.stopping (.locking d))⟩) : s.count hasEmptied = 0 := by
  refine Nat.eq_zero_of_not_pos fun hpos => ?_
  obtain ⟨x, hx, hemptied⟩ := List.countP_pos_iff.mp hpos
  obtain ⟨j, hj⟩ := List.mem_iff_getElem?.mp hx
  have hij := ho.eq_of_inCharge hi rfl hj (inCharge_of_hasEmptied hemptied)
  rw [← hij, hi] at hj
  cases hj
  contradiction

/-- A stop that finds no crew in the slot comes where there is none. -/
theorem findsNone (ho : s.Orderly) (h : s.Custody) {d : Option Duration}
    (hi : s.calls[i]? = some ⟨q, .on (.stopping (.locking d))⟩) (hs : s.consumer.slot = .none) :
    s.consumer.crews = [] := by
  cases h with
  | none hc => exact hc
  | inSlot x _ _ hs' =>
    rw [hs] at hs'
    contradiction
  | taken x _ _ _ he =>
    have hz := emptied_eq_zero ho hi
    have hp := ho.phase_of_inCharge hi rfl
    obtain he | he := he
    · omega
    · rw [he] at hp
      contradiction

/-- A stop that finds a crew in the slot finds all of it there. -/
theorem takes (h : s.Custody) {n : Nat} (hs : s.consumer.slot = some n) :
    n = 0 ∧ ∃ x, s.consumer.crews = [x] ∧ x.pool.spawned = s.consumer.settings.workers ∧
      x.pool.handles = List.range s.consumer.settings.workers := by
  cases h with
  | none _ hs' =>
    rw [hs] at hs'
    contradiction
  | inSlot x hc hw hs' hh =>
    rw [hs] at hs'
    exact ⟨Option.some.inj hs', x, hc, hw, hh⟩
  | taken x _ _ hs' =>
    rw [hs] at hs'
    contradiction

/-- A stop that waits for a crew has taken it. -/
theorem of_draining (h : s.Custody) {n : Nat} {wait : Duration} {d : Pool.Shutdown}
    (hi : s.calls[i]? = some ⟨q, .on (.stopping (.draining n wait d))⟩) :
    n = 0 ∧ s.consumer.slot = .none ∧ ∃ x, s.consumer.crews = [x] ∧
      x.pool.spawned = s.consumer.settings.workers ∧ Drains s.consumer.settings.workers x d := by
  cases h with
  | none _ _ hd => exact (hd _ _ _ _ _ hi).elim
  | inSlot x _ _ _ _ he =>
    have hpos := count_pos hi (f := hasEmptied) rfl
    omega
  | taken x hc hw hs _ hd =>
    obtain ⟨hn, hx⟩ := hd _ _ _ _ _ hi
    exact ⟨hn, hs, x, hc, hw, hx⟩

/-- No other stop waits for a crew than the one in charge. -/
theorem draining_of_inCharge (ho : s.Orderly) (hi : s.calls[i]? = some ⟨q, .on k⟩)
    (hk : inCharge (.on k) = true) {j : Nat} {q' : Request} {n : Nat} {wait : Duration}
    {d : Pool.Shutdown} (hj : (s.resume i q c p).calls[j]? =
      some ⟨q', .on (.stopping (.draining n wait d))⟩) :
    p = .on (.stopping (.draining n wait d)) := by
  obtain ⟨-, heq⟩ | ⟨hij, hj⟩ := entry_of_resume hi hj
  · injection heq with _ heq
    exact heq.symm
  · exact (hij (ho.eq_of_inCharge hi hk hj rfl)).elim

theorem turn (ho : s.Orderly) (h : s.Custody) (hi : s.calls[i]? = some ⟨q, .on k⟩)
    (ht : Turn s.now s.consumer k c p) : (s.resume i q c p).Custody := by
  cases ht with
  | hires caller => exact hires ho hi
  | findsNone d _ hs =>
    have hc := h.findsNone ho hi hs
    refine .none hc rfl fun j q' n wait d' hj => ?_
    cases draining_of_inCharge ho hi rfl hj
  | takes d n _ hs =>
    obtain ⟨rfl, x, hc, hw, hh⟩ := h.takes hs
    refine .taken x hc hw rfl (.inl (count_pos (getElem?_resume hi) rfl))
      fun j q' n wait d' hj => ?_
    cases draining_of_inCharge ho hi rfl hj
    exact ⟨rfl, hh⟩
  | cancels n wait ticks =>
    obtain ⟨rfl, hs, x, hc, hw, hx⟩ := h.of_draining hi
    refine .taken { x with pool := { x.pool with stopped := true, handles := [] } } ?_ hw hs
      (.inl (count_pos (getElem?_resume hi) rfl)) fun j q' n wait d' hj => ?_
    · show s.consumer.crews.set 0 _ = _
      rw [crew_zero hc, hc]
      rfl
    · cases draining_of_inCharge ho hi rfl hj
      refine ⟨rfl, ?_, rfl⟩
      rw [crew_zero hc]
      exact hx
  | drains n wait workers due =>
    obtain ⟨-, hs, x, hc, hw, -⟩ := h.of_draining hi
    refine .taken x hc hw hs (.inl (count_pos (getElem?_resume hi) rfl)) fun j q' n wait d' hj => ?_
    cases draining_of_inCharge ho hi rfl hj
  | stores closed =>
    have hbefore := draining_of_resume hi (c := { s.consumer with phase := .stopped })
      (p := .done (.stopped closed)) nofun
    cases h with
    | none hc hs hd =>
      exact .none hc hs fun j q' n wait d' hj => hd j q' n wait d' (hbefore j q' n wait d' hj)
    | inSlot x _ _ _ _ he =>
      have hpos := count_pos hi (f := hasEmptied) rfl
      omega
    | taken x hc hw hs _ hd =>
      exact .taken x hc hw hs (.inr rfl) fun j q' n wait d' hj =>
        hd j q' n wait d' (hbefore j q' n wait d' hj)
  | _ =>
    refine h.of_frame rfl rfl rfl ?_ ?_ (count_resume_of_eq hi rfl) (draining_of_resume hi nofun)
    all_goals simp_all [resume]

theorem accept (h : s.Custody) (q : Request) : (s.accept q).Custody := by
  refine h.of_frame rfl rfl rfl id id (count_accept (by cases q <;> rfl) s) ?_
  intro i q' n wait d hi
  refine (entry_of_accept hi).resolve_right fun hx => ?_
  cases q <;> cases hx

/-- A worker that ends leaves its crew where it is. -/
theorem finish (h : s.Custody) {crew worker : Nat} (how : Exit)
    (hw : s.consumer.isAtWork crew worker = true) : (s.finish crew worker how).Custody := by
  have hlt : crew < s.consumer.crews.length := by
    simp only [isAtWork, Bool.and_eq_true, decide_eq_true_eq] at hw
    exact hw.1.1
  have hset {x : Crew} (hc : s.consumer.crews = [x]) :
      (s.finish crew worker how).consumer.crews =
        [{ x with pool := x.pool.finish worker how }] := by
    rw [hc, List.length_singleton, Nat.lt_one_iff] at hlt
    rw [Life.finish, hlt, crew_zero hc, setPool_zero hc]
  cases h with
  | none hc =>
    rw [hc] at hlt
    contradiction
  | inSlot x hc hw hs hh he hp => exact .inSlot _ (hset hc) hw hs hh he hp
  | taken x hc hw hs he hd =>
    refine .taken _ (hset hc) hw hs he fun i q n wait d hi => ?_
    obtain ⟨hn, hx⟩ := hd i q n wait d hi
    cases d with
    | stopping ticks => exact ⟨hn, hx⟩
    | joining workers due => exact ⟨hn, hx⟩

end Custody

/-- The crew is always somewhere. -/
theorem Reachable.custody {settings : ConsumerSettings} {s : Life} (h : s.Reachable settings) :
    s.Custody := by
  obtain ⟨receiver, hl⟩ := h
  refine hl.invariant (P := Custody) ?_ ?_ ?_ ?_ ?_
  · exact .none rfl rfl fun i q n wait d => nofun
  · exact fun t q ih => ih.accept q
  · exact fun t i q k c p ht hi hturn ih => ih.turn (Reachable.orderly ⟨receiver, ht⟩) hi hturn
  · exact fun t crew worker how hw ih => ih.finish how hw
  · exact fun t ms ih => ih.of_frame rfl rfl rfl id id rfl fun _ _ _ _ _ hi => hi

end Life

end PeekLock.Consumer
