import PeekLock.Proofs.Broker.Peaks
import PeekLock.Proofs.Broker.Runs
import PeekLock.Proofs.Broker.Transfers

/-!
# PeekLock.Proofs.Broker.Outstanding

The counters of receives among all other calls.

A receive is outstanding from the step in which it enters until it returns
or is dropped.  One move counts one receive in, or one out, or none, and
the counters go along (`passes_of_after`); so the number of active receives
is that of the outstanding ones, and the peak is the greatest number of
them that the run has come by.
-/

namespace PeekLock.Broker

/-- A receive is outstanding: it has entered, and has neither returned nor been dropped. -/
def Entry.isOutstanding : Entry → Bool
  | ⟨_, .on (.receiving c)⟩ => c.point ≠ .arriving
  | _ => false

/-- From some counters to others a receive enters, or leaves, or none does; and whether one is
outstanding before and after that. -/
inductive Gauge.Passes : Gauge → Gauge → Bool → Bool → Prop where
  | stays (g : Gauge) (x : Bool) : Passes g g x x
  | enters (g : Gauge) : Passes g g.enter false true
  | leaves (g : Gauge) : Passes g g.lower true false

theorem gauge_enterReceive (b : Broker) : b.enterReceive.gauge = b.gauge.enter := rfl

theorem gauge_leaveReceive (b : Broker) : b.leaveReceive.gauge = b.gauge.lower := rfl

/-! ## What a step does to the counters -/

theorem gauge_buildMessage (b : Broker) (now : Nat) (body : List UInt8) (options : SendOptions) :
    (b.buildMessage now body options).2.gauge = b.gauge := by
  unfold buildMessage
  cases options.messageId <;> rfl

theorem gauge_enqueue (b : Broker) (target : String) (m : Message) :
    (b.enqueue target m).gauge = b.gauge := by
  rw [enqueue_frame]
  rfl

theorem gauge_goOn (now : Nat) (b : Broker) (target : String) (count : Nat) (options : SendOptions)
    (bodies : List (List UInt8)) :
    (SendBatch.goOn now b target count options bodies).state.gauge = b.gauge := by
  cases bodies with
  | nil => rfl
  | cons body rest => exact gauge_buildMessage b now body options

theorem gauge_lapse (b : Broker) (r : Receiver) : (b.lapse r).gauge = b.gauge := by
  rw [lapse_eq]
  rfl

theorem Receive.passes_step (now began : Nat) (b : Broker) (c : Receive) :
    Gauge.Passes b.gauge (c.step now b).state.gauge
      (Entry.isOutstanding ⟨began, .on (.receiving c)⟩)
      (Entry.isOutstanding ⟨began, (c.step now b).progress.map .receiving .received⟩) := by
  have henters : Gauge.Passes b.gauge b.enterReceive.gauge false true := by
    rw [gauge_enterReceive]
    exact .enters b.gauge
  have hleaves : Gauge.Passes b.gauge b.leaveReceive.gauge true false := by
    rw [gauge_leaveReceive]
    exact .leaves b.gauge
  obtain ⟨r, most, timeout, point⟩ := c
  cases point with
  | arriving =>
    simp only [Receive.step]
    split
    · exact henters
    · exact .stays b.gauge false
  | readingFaults =>
    simp only [Receive.step]
    split
    · exact hleaves
    · exact hleaves
    · exact .stays b.gauge true
    · exact .stays b.gauge true
  | delayed due => exact .stays b.gauge true
  | checking deadline seen =>
    simp only [Receive.step]
    split
    · exact .stays b.gauge true
    · exact hleaves
  | looking deadline seen =>
    simp only [Receive.step]
    split
    · exact .stays b.gauge true
    · exact hleaves
  | parked deadline seen =>
    simp only [Receive.step]
    split
    · exact .stays b.gauge true
    · exact hleaves

private theorem isOutstanding_map {κ α : Type} (began : Nat) (point : κ → Call)
    (result : α → Outcome) (h : ∀ k, Entry.isOutstanding ⟨began, .on (point k)⟩ = false)
    (p : Progress κ α) : Entry.isOutstanding ⟨began, p.map point result⟩ = false := by
  cases p with
  | on k => exact h k
  | done a => rfl

/-- Only a receive changes the counters. -/
theorem Call.gauge_step {c : Call} (h : ∀ k, c ≠ .receiving k) (now : Nat) (b : Broker) :
    (c.step now b).state.gauge = b.gauge := by
  obtain c | c | c | c | ⟨r, token, verdict, point⟩ | ⟨r, point⟩ | _ | _ := c
  case receiving => exact (h c rfl).elim
  case sending =>
    cases c with
    | checking target body options =>
      simp only [Call.step, Step.map, Send.step]
      split
      · rfl
      · exact gauge_buildMessage b now body options
    | enqueueing target m => exact gauge_enqueue b target m
    | announcing target id => rfl
  case sendingBatch =>
    cases c with
    | checking target bodies options =>
      simp only [Call.step, Step.map, SendBatch.step]
      split
      · rfl
      · exact gauge_goOn now b target _ options bodies
    | enqueueing target count m rest options => exact gauge_enqueue b target m
    | announcing target count rest options =>
      exact gauge_goOn now b.broadcast target count options rest
  case opening =>
    cases c with
    | checking entity =>
      simp only [Call.step, Step.map, Open.step]
      split
      · rfl
      · split <;> rfl
    | registering path => rfl
  case settling =>
    cases point with
    | readingFault =>
      simp only [Call.step, Step.map, Settle.step]
      split
      · split <;> rfl
      · rfl
    | releasing => simp only [Call.step, Step.map, Settle.step]; split <;> rfl
    | recording l => cases verdict <;> rfl
    | announcing => rfl
  case closing =>
    cases point with
    | marking => simp only [Call.step, Step.map, Close.step]; split <;> rfl
    | lapsing => exact gauge_lapse b r
    | announcing => rfl
  case subscribing => rfl
  case arranging => rfl

/-- **The counters go along**: a step of a call counts one receive in, or one out, or none. -/
theorem Call.passes_step (now began : Nat) (b : Broker) (c : Call) :
    Gauge.Passes b.gauge (c.step now b).state.gauge (Entry.isOutstanding ⟨began, .on c⟩)
      (Entry.isOutstanding ⟨began, (c.step now b).progress⟩) := by
  by_cases hc : ∃ k, c = .receiving k
  · obtain ⟨k, rfl⟩ := hc
    exact k.passes_step now began b
  · have hne : ∀ k, c ≠ .receiving k := fun k hk => hc ⟨k, hk⟩
    have hbefore : Entry.isOutstanding ⟨began, .on c⟩ = false := by
      cases c with
      | receiving k => exact (hne k rfl).elim
      | _ => rfl
    have hafter : Entry.isOutstanding ⟨began, (c.step now b).progress⟩ = false := by
      cases c with
      | receiving k => exact (hne k rfl).elim
      | subscribing topic name => rfl
      | arranging faults => rfl
      | _ => exact isOutstanding_map began _ _ (fun _ => rfl) _
    rw [c.gauge_step hne, hbefore, hafter]
    exact .stays b.gauge false

/-- A receive that is dropped is counted out, if it was counted in. -/
theorem Receive.passes_drop (began : Nat) (b : Broker) (c : Receive) :
    Gauge.Passes b.gauge (c.drop b).gauge (Entry.isOutstanding ⟨began, .on (.receiving c)⟩)
      (Entry.isOutstanding ⟨began, .done .dropped⟩) := by
  obtain ⟨r, most, timeout, point⟩ := c
  cases point with
  | arriving => exact .stays b.gauge false
  | _ => exact .leaves b.gauge

namespace Traffic

/-- How many receives are outstanding. -/
def outstanding (s : Traffic) : Nat := s.calls.countP Entry.isOutstanding

variable {s t : Traffic} {m : Move} {supply : Identifier.Supply} {moves : List Move}

/-- An entry is replaced, and the counters go along. -/
theorem outstanding_set {i : Nat} {x y : Entry} (hi : s.calls[i]? = some x)
    (ht : t.calls = s.calls.set i y) :
    t.outstanding + (if x.isOutstanding then 1 else 0) =
      s.outstanding + if y.isOutstanding then 1 else 0 := by
  rw [outstanding, ht]
  exact countP_set_add Entry.isOutstanding hi y

/-- A move counts one receive in, or one out, or none, and the counters go along. -/
theorem passes_of_after (h : s.after m = some t) : ∃ was is : Bool,
    Gauge.Passes s.broker.gauge t.broker.gauge was is ∧
      t.outstanding + (if was then 1 else 0) = s.outstanding + if is then 1 else 0 := by
  obtain ⟨q, -, -, rfl⟩ | ⟨i, began, c, -, hi, -, rfl⟩ | ⟨i, began, c, -, hi, rfl⟩ |
    ⟨ms, -, rfl⟩ | ⟨locks, -, -, rfl⟩ := after_cases h
  · refine ⟨false, false, .stays _ _, ?_⟩
    have hq : Entry.isOutstanding ⟨s.now, .on q.call⟩ = false := by cases q <;> rfl
    rw [outstanding, accept, List.countP_append, List.countP_singleton, hq]
    rfl
  · exact ⟨_, _, c.passes_step s.now began s.broker, outstanding_set hi rfl⟩
  · exact ⟨_, _, c.passes_drop began s.broker, outstanding_set hi rfl⟩
  · exact ⟨false, false, .stays _ _, rfl⟩
  · exact ⟨false, false, .stays _ _, rfl⟩

/-- The number of active receives is that of the outstanding ones; it is not above the peak, and
that is not above the number of receives that were counted. -/
structure Gauged (s : Traffic) : Prop where
  active : s.broker.activeReceives = s.outstanding
  within : s.broker.activeReceives ≤ s.broker.peakReceives
  counted : s.broker.peakReceives ≤ s.broker.receiveCalls

/-- A move keeps the number right, and brings the peak up to it. -/
theorem Gauged.after (h : s.Gauged) (hm : s.after m = some t) :
    t.Gauged ∧ t.broker.peakReceives = max t.outstanding s.broker.peakReceives := by
  obtain ⟨hactive, hwithin, hcounted⟩ := h
  obtain ⟨was, is, hp, hcount⟩ := passes_of_after hm
  have hs : s.broker.gauge =
    ⟨s.broker.receiveCalls, s.broker.activeReceives, s.broker.peakReceives⟩ := rfl
  have ht : t.broker.gauge =
    ⟨t.broker.receiveCalls, t.broker.activeReceives, t.broker.peakReceives⟩ := rfl
  suffices hsuff : t.broker.activeReceives = t.outstanding ∧
      t.broker.peakReceives = max t.outstanding s.broker.peakReceives ∧
        t.broker.peakReceives ≤ t.broker.receiveCalls by
    obtain ⟨hactive', hpeak, hcounted'⟩ := hsuff
    exact ⟨⟨hactive', by omega, hcounted'⟩, hpeak⟩
  generalize s.broker.gauge = g at hp hs
  generalize t.broker.gauge = g' at hp ht
  subst hs
  cases hp with
  | stays =>
    injection ht with hcalls hactive' hpeak
    omega
  | enters =>
    injection ht with hcalls hactive' hpeak
    simp only [Gauge.count, Gauge.raise] at hcalls hactive' hpeak
    simp only [if_true, Bool.false_eq_true, if_false] at hcount
    omega
  | leaves =>
    injection ht with hcalls hactive' hpeak
    simp only at hcalls hactive' hpeak
    simp only [if_true, Bool.false_eq_true, if_false] at hcount
    omega

theorem Reachable.gauged (h : s.Reachable) : s.Gauged := by
  obtain ⟨supply, h⟩ := h
  induction h with
  | refl => exact ⟨rfl, Nat.le_refl 0, Nat.le_refl 0⟩
  | step _ hm ih => exact (ih.after hm).1

/-- What the counters tell after some moves. -/
structure Tells (supply : Identifier.Supply) (moves : List Move) (s : Traffic) : Prop where
  /-- The number of active receives is that of the outstanding ones. -/
  active : s.broker.activeReceives = s.outstanding
  /-- Whichever receive lowers it finds it above zero. -/
  positive : ∀ x ∈ s.calls, x.isOutstanding = true → 0 < s.broker.activeReceives
  /-- The peak is the greatest number of outstanding receives that the run has come by. -/
  peak : IsGreatest (numbersOver after outstanding (start supply) moves) s.broker.peakReceives

theorem tells (h : run (start supply) moves = some s) : s.Tells supply moves where
  active := (reachable_of_run h).gauged.active
  positive x hx ho := by
    rw [(reachable_of_run h).gauged.active]
    exact List.countP_pos_iff.mpr ⟨x, hx, ho⟩
  peak := by
    let peak (s : Traffic) : Nat := s.broker.peakReceives
    have hmove (front : List Move) (t : Traffic) (m : Move) (u : Traffic)
        (ht : front.foldlM after (start supply) = some t) (hm : t.after m = some u) :
        peak u = max u.outstanding (peak t) :=
      ((reachable_of_run ht).gauged.after hm).2
    have hstart : peak (start supply) = outstanding (start supply) := rfl
    exact isGreatest_of_foldlM hstart hmove h

end Traffic

end PeekLock.Broker
