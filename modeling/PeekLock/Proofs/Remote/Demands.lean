import PeekLock.Proofs.Remote.Soundness

/-!
# PeekLock.Proofs.Remote.Demands

A call stays what it was begun as.

From its first step to its outcome a call is about the receiver, the token
and the verdict of its demand.  So what has happened can be told from the
demands: a receiver is closed only if that was demanded.
-/

namespace PeekLock.Remote

/-- What a call is about. -/
inductive Matter where
  | sending
  | opening
  | receiving (r : Nat)
  | settling (r : Nat) (token : LockToken) (v : Verdict)
  | closing (r : Nat)

/-- What is demanded. -/
def Demand.matter : Demand → Matter
  | .send .. | .sendBatch .. => .sending
  | .createReceiver _ => .opening
  | .receive r .. => .receiving r
  | .settle r token v => .settling r token v
  | .close r => .closing r

/-- What a call on its way is about. -/
def Call.matter : Call → Matter
  | .sending _ => .sending
  | .opening _ => .opening
  | .receiving c => .receiving c.receiver
  | .settling c => .settling c.receiver c.token c.verdict
  | .closing c => .closing c.receiver

/-- Whether a call about that matter can end so. -/
def Outcome.Ends : Outcome → Matter → Prop
  | .sent _, .sending => True
  | .opened _, .opening => True
  | .received _, .receiving _ => True
  | .dropped, .receiving _ => True
  | .settled _, .settling .. => True
  | .closed _, .closing _ => True
  | _, _ => False

/-- Whether a call about that matter can have come so far. -/
def Matter.Covers (x : Matter) : Progress Call Outcome → Prop
  | .on c => c.matter = x
  | .done o => o.Ends x

/-! ## Inversion -/

theorem Demand.matter_call (q : Demand) : q.call.matter = q.matter := by
  cases q <;> rfl

theorem Demand.eq_settle {q : Demand} {r : Nat} {token : LockToken} {v : Verdict}
    (h : Matter.settling r token v = q.matter) : q = .settle r token v := by
  cases q <;> cases h
  rfl

theorem Demand.eq_receive {q : Demand} {r : Nat} (h : Matter.receiving r = q.matter) :
    ∃ most timeout, q = .receive r most timeout := by
  cases q <;> cases h
  exact ⟨_, _, rfl⟩

theorem Demand.eq_close {q : Demand} {r : Nat} (h : Matter.closing r = q.matter) :
    q = .close r := by
  cases q <;> cases h
  rfl

theorem Call.eq_settling {c : Call} {r : Nat} {token : LockToken} {v : Verdict}
    (h : c.matter = .settling r token v) :
    ∃ k : Settle, c = .settling k ∧ k.receiver = r ∧ k.token = token ∧ k.verdict = v := by
  cases c <;> cases h
  exact ⟨_, rfl, rfl, rfl, rfl⟩

/-- A receive that ends before its time. -/
theorem Outcome.ends_cutShort {o : Outcome} (h : o = .dropped ∨ ∃ e, o = .received (.error e))
    (r : Nat) : o.Ends (.receiving r) := by
  obtain rfl | ⟨e, rfl⟩ := h <;> trivial

/-! ## Steps -/

/-- However a close goes on, it is still a close of the same receiver. -/
theorem Close.GoesOn.covers {c : Close} {lanes : List Nat} {p : Progress Call Outcome}
    (h : c.GoesOn lanes p) : (Matter.closing c.receiver).Covers p := by
  obtain ⟨result, rfl⟩ | ⟨position, ticket, rest, tally, -, rfl⟩ := h <;> trivial

namespace Deed

variable {s t : Client} {c : Call} {sets : List LaneSet} {p : Progress Call Outcome}

/-- A step leaves a call what it is. -/
theorem covers (h : Deed s c sets p) : c.matter.Covers p := by
  cases h with
  | sends c p | opens c p => cases p <;> trivial
  | adds c list ticket link problem hc p hp =>
    obtain ⟨e, rfl⟩ | ⟨ticket', deadline, rfl⟩ := hp <;> trivial
  | disposes c position ticket rest tally hc p hp =>
    obtain hp | ⟨problem, tally', rfl⟩ := hp
    · exact hp.covers
    · trivial
  | unlists c list hc p hp => exact hp.covers
  | goesOn c position ticket problem rest tally hc p hp => exact hp.covers
  | _ => trivial

/-- Only a close marks its receiver as closed. -/
theorem closed_of (h : Deed s c sets p) (ht : t.receivers = sets) {r : Nat}
    (hc : (t.receiver r).closed = true) :
    (s.receiver r).closed = true ∨ ∃ k : Close, c = .closing k ∧ k.receiver = r := by
  have hset {r' : Nat} {set : LaneSet} (hs : t.receivers = (s.setReceiver r' set).receivers)
      (hkept : set.closed = (s.receiver r').closed) : (s.receiver r).closed = true := by
    rw [Client.receiver_congr hs] at hc
    obtain he | ⟨rfl, -, he⟩ := Client.receiver_setReceiver s r' r set
    · exact he ▸ hc
    · rw [he, hkept] at hc
      exact hc
  cases h with
  | creates c path link =>
    have hs : t.receivers =
        { s with receivers := s.receivers ++ [LaneSet.fresh path link] }.receivers := ht
    rw [Client.receiver_congr hs] at hc
    by_cases hr : r < s.receivers.length
    · exact .inl (Client.receiver_append (LaneSet.fresh path link) hr ▸ hc)
    · by_cases he : r = s.receivers.length
      · rw [he, Client.receiver_append_self] at hc
        contradiction
      · rw [Client.receiver_of_le (by rw [List.length_append, List.length_singleton]; omega)] at hc
        contradiction
  | marks c hm list =>
    rw [Client.receiver_congr ht] at hc
    obtain he | ⟨hr, -, -⟩ := Client.receiver_setReceiver s c.receiver r
      { s.receiver c.receiver with closed := true }
    · exact .inl (he ▸ hc)
    · exact .inr ⟨c, rfl, hr.symm⟩
  | adds | handsOut | asks | misses | unlists | disposes => exact .inl (hset ht rfl)
  | _ => exact .inl (Client.receiver_congr ht r ▸ hc)

end Deed

/-! ## Traffic -/

/-- The calls are those that were demanded. -/
structure Traffic.Demanded (s : Traffic) : Prop where
  calls : ∀ (i : Nat) (x : Entry), s.calls[i]? = some x → x.demand.matter.Covers x.progress
  /-- A receiver is closed only if that was demanded. -/
  closed : ∀ r, (s.client.receiver r).closed = true → ∃ x ∈ s.calls, x.demand = .close r

namespace Traffic

variable {s t : Traffic}

theorem demanded_start (supply : Identifier.Supply) (print : Amqp.Value → String) :
    (start supply print).Demanded :=
  ⟨fun i x hi => (calls_start i x hi).elim, nofun⟩

/-- Replacing the progress of a call keeps every demand. -/
theorem exists_demand_set {calls : List Entry} {i : Nat} {q : Demand} {p p' : Progress Call Outcome}
    (hi : calls[i]? = some ⟨q, p⟩) {q' : Demand} (h : ∃ x ∈ calls, x.demand = q') :
    ∃ x ∈ calls.set i ⟨q, p'⟩, x.demand = q' := by
  obtain ⟨x, hx, hq⟩ := h
  obtain ⟨j, hj⟩ := List.mem_iff_getElem?.mp hx
  obtain ⟨hlt, -⟩ := List.getElem?_eq_some_iff.mp hi
  by_cases hij : i = j
  · subst hij
    rw [hi] at hj
    cases hj
    exact ⟨_, List.mem_iff_getElem?.mpr ⟨i, List.getElem?_set_self hlt⟩, hq⟩
  · exact ⟨x, List.mem_iff_getElem?.mpr ⟨j, by rw [List.getElem?_set_ne hij, hj]⟩, hq⟩

theorem Demanded.turn (h : s.Demanded) (hs : s.Sound) (ht : Turn s t) : t.Demanded := by
  cases ht with
  | accepts q hr =>
    refine ⟨fun j x hj => ?_, fun r hc => ?_⟩
    · obtain hj | ⟨-, rfl⟩ := entry_of_accept hj
      · exact h.calls j x hj
      · exact q.matter_call
    · obtain ⟨x, hx, hq⟩ := h.closed r hc
      exact ⟨x, List.mem_append_left _ hx, hq⟩
  | advances i q c hi hr ho =>
    have hdeed := c.deed s.now (hs.fits i q c hi).known
    have hmatter : c.matter = q.matter := h.calls i _ hi
    refine ⟨fun j x hj => ?_, fun r hc => exists_demand_set hi ?_⟩
    · obtain ⟨-, hj⟩ | ⟨-, rfl⟩ := entry_of_set hj
      · exact h.calls j x hj
      · exact hmatter ▸ hdeed.covers
    · obtain hc | ⟨k, rfl, hk⟩ := hdeed.closed_of rfl hc
      · exact h.closed r hc
      · exact ⟨_, List.mem_of_getElem? hi, hk ▸ Demand.eq_close hmatter⟩
  | cutsShort i q c o hi ho =>
    refine ⟨fun j x hj => ?_, fun r hc => exists_demand_set hi ?_⟩
    · obtain ⟨-, hj⟩ | ⟨-, rfl⟩ := entry_of_set hj
      · exact h.calls j x hj
      · have hmatter : Matter.receiving c.receiver = q.matter := h.calls i _ hi
        exact hmatter ▸ Outcome.ends_cutShort ho c.receiver
    · exact h.closed r (Client.receiver_congr (c.receivers_drop s.client) r ▸ hc)
  | arranges => exact ⟨h.calls, h.closed⟩
  | waits ms => exact ⟨h.calls, h.closed⟩

/-- **Calls stay what they are**, in every traffic that can come about. -/
theorem Reachable.demanded (h : s.Reachable) : s.Demanded :=
  h.invariant demanded_start fun _ _ hl ht hd => hd.turn hl.sound ht

end Traffic

end PeekLock.Remote
