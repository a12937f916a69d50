import PeekLock.Proofs.Broker.Runs
import PeekLock.Proofs.Broker.Transfers

/-!
# PeekLock.Proofs.Broker.Telling

What the calls of the in-memory bus tell each other.

A call that puts copies into queues, or closes a receiver, owes a
broadcast.  Until it has made it, what it did is untold.  `Follows` says
that a move leaves nothing else behind: over a move in which nothing is
told, whatever waits in a queue and whatever was closed is either known
from before or untold.
-/

namespace PeekLock.Broker

/-! ## What a step tells -/

/-- Nobody is told anything, and no receiver is closed. -/
structure Silent (before after : Broker) : Prop where
  broadcasts : after.broadcasts = before.broadcasts
  closed : after.closed = before.closed

namespace Silent

theorem refl (b : Broker) : Silent b b := ⟨rfl, rfl⟩

theorem buildMessage (b : Broker) (now : Nat) (body : List UInt8) (options : SendOptions) :
    Silent b (b.buildMessage now body options).2 := by
  unfold Broker.buildMessage
  cases options.messageId <;> exact ⟨rfl, rfl⟩

theorem enqueue (b : Broker) (target : String) (m : Message) : Silent b (b.enqueue target m) := by
  rw [enqueue_frame]
  exact ⟨rfl, rfl⟩

theorem lapse (b : Broker) (r : Receiver) : Silent b (b.lapse r) := by
  rw [lapse_eq]
  exact ⟨rfl, rfl⟩

theorem goOn (now : Nat) (b : Broker) (target : String) (count : Nat) (options : SendOptions)
    (bodies : List (List UInt8)) :
    Silent b (SendBatch.goOn now b target count options bodies).state := by
  cases bodies with
  | nil => exact .refl b
  | cons body rest => exact .buildMessage b now body options

end Silent

namespace Call

/-- The bus after the broadcast that the next step of a call owes, if any. -/
def told (b : Broker) (c : Call) : Broker := if c.owesBroadcast then b.broadcast else b

/-- Beside the broadcast that it owes, a step is silent, unless it is the first
one of a close. -/
theorem step_silent (now : Nat) (b : Broker) (c : Call) :
    Silent (c.told b) (c.step now b).state ∨
      ∃ r, c = .closing { receiver := r } := by
  obtain c | c | c | ⟨r, most, timeout, point⟩ | ⟨r, token, verdict, point⟩ | ⟨r, point⟩ |
    _ | _ := c
  · refine .inl ?_
    cases c with
    | checking target body options =>
      simp only [Call.step, Step.map, Send.step]
      split
      · exact .refl b
      · exact .buildMessage b now body options
    | enqueueing target m => exact .enqueue b target m
    | announcing target id => exact .refl _
  · refine .inl ?_
    cases c with
    | checking target bodies options =>
      simp only [Call.step, Step.map, SendBatch.step]
      split
      · exact .refl b
      · exact .goOn now b target _ options bodies
    | enqueueing target count m rest options => exact .enqueue b target m
    | announcing target count rest options =>
      exact .goOn now b.broadcast target count options rest
  · refine .inl ?_
    cases c with
    | checking entity =>
      simp only [Call.step, Step.map, Open.step]
      split
      · exact .refl b
      · split <;> exact .refl b
    | registering path => exact ⟨rfl, rfl⟩
  · refine .inl ?_
    cases point with
    | delayed due => exact .refl b
    | _ => simp only [Call.step, Step.map, Receive.step]; split <;> exact ⟨rfl, rfl⟩
  · refine .inl ?_
    cases point with
    | readingFault =>
      simp only [Call.step, Step.map, Settle.step]
      split
      · split <;> exact .refl b
      · exact .refl b
    | releasing => simp only [Call.step, Step.map, Settle.step]; split <;> exact ⟨rfl, rfl⟩
    | recording l => cases verdict <;> exact ⟨rfl, rfl⟩
    | announcing => exact .refl _
  · cases point with
    | marking => exact .inr ⟨r, rfl⟩
    | lapsing => exact .inl (.lapse b r)
    | announcing => exact .inl (.refl _)
  · exact .inl ⟨rfl, rfl⟩
  · exact .inl ⟨rfl, rfl⟩

/-- A step tells the waiting calls to look again exactly if it owes that. -/
theorem step_broadcasts (now : Nat) (b : Broker) (c : Call) :
    (c.step now b).state.broadcasts = b.broadcasts + if c.owesBroadcast then 1 else 0 := by
  obtain hs | ⟨r, rfl⟩ := c.step_silent now b
  · rw [hs.broadcasts, told]
    split <;> rfl
  · simp only [Call.step, Step.map, Close.step]
    split <;> rfl

/-- A close that has marked its receiver goes on until it has told so. -/
theorem isClosing_step {now : Nat} {b : Broker} {c : Call} {r : Receiver}
    (h : c.isClosing r = true) (ho : c.owesBroadcast = false) :
    ∃ c', (c.step now b).progress = .on c' ∧ c'.isClosing r = true := by
  obtain _ | _ | _ | _ | _ | ⟨k, point⟩ | _ | _ := c
  case closing =>
    cases point with
    | marking => simp [isClosing] at h
    | lapsing =>
      refine ⟨.closing ⟨k, .announcing⟩, rfl, ?_⟩
      simpa [isClosing] using h
    | announcing => simp [owesBroadcast] at ho
  all_goals contradiction

/-- A receiver that a step closes is one whose close is on its way. -/
theorem isClosing_of_closes {now : Nat} {b : Broker} {c : Call} {r : Receiver}
    (h : b.isOpen r = true) (hc : (c.step now b).state.isOpen r = false) :
    ∃ c', (c.step now b).progress = .on c' ∧ c'.isClosing r = true := by
  obtain hs | ⟨k, rfl⟩ := c.step_silent now b
  · have hb : (c.told b).closed = b.closed := by
      unfold told
      split <;> rfl
    rw [isOpen, hs.closed, hb, ← isOpen, h] at hc
    contradiction
  · simp only [Call.step, Step.map, Close.step] at hc ⊢
    by_cases hk : b.isOpen k = true
    · rw [if_pos hk] at hc ⊢
      refine ⟨.closing ⟨k, .lapsing⟩, rfl, ?_⟩
      have hnot : r.id ∉ b.closed := by simpa [isOpen] using h
      have hmem : r.id ∈ k.id :: b.closed :=
        List.contains_iff_mem.mp (by simpa only [isOpen, Bool.not_eq_false'] using hc)
      have hid : r.id = k.id := (List.mem_cons.mp hmem).resolve_right hnot
      simp [isClosing, hid]
    · rw [if_neg hk, h] at hc
      contradiction

/-- A step that puts copies into queues owes to tell so. -/
theorem owesBroadcast_of_places (now : Nat) {b : Broker} {c : Call} {p : String × Copy}
    (h : p ∈ (c.transfer b).placements b) :
    ∃ c', (c.step now b).progress = .on c' ∧ c'.owesBroadcast = true := by
  obtain c | c | c | ⟨r, most, timeout, point⟩ | ⟨r, token, verdict, point⟩ | ⟨r, point⟩ |
    _ | _ := c
  · cases c with
    | enqueueing target m => exact ⟨.sending (.announcing target m.id), rfl, rfl⟩
    | checking | announcing => contradiction
  · cases c with
    | enqueueing target count m rest options =>
      exact ⟨.sendingBatch (.announcing target count rest options), rfl, rfl⟩
    | checking | announcing => contradiction
  · contradiction
  · cases point <;> contradiction
  · cases point with
    | recording l =>
      cases verdict with
      | complete => contradiction
      | abandon => exact ⟨.settling ⟨r, token, .abandon, .announcing⟩, rfl, rfl⟩
    | releasing =>
      simp only [transfer] at h
      cases hl : b.lock? r token with
      | none => rw [hl] at h; contradiction
      | some l => rw [hl] at h; contradiction
    | readingFault => cases verdict <;> contradiction
    | announcing => cases verdict <;> contradiction
  · cases point with
    | lapsing => exact ⟨.closing ⟨r, .announcing⟩, rfl, rfl⟩
    | marking | announcing => contradiction
  · contradiction
  · contradiction

end Call

/-! ## What is not told yet -/

namespace Traffic

/-- The next step of that call tells the waiting calls to look again. -/
def Owes (s : Traffic) (j : Nat) : Prop :=
  ∃ began c, s.calls[j]? = some ⟨began, .on c⟩ ∧ c.owesBroadcast = true

/-- That call has closed a receiver and not told so yet. -/
def IsClosing (s : Traffic) (j : Nat) (r : Receiver) : Prop :=
  ∃ began c, s.calls[j]? = some ⟨began, .on c⟩ ∧ c.isClosing r = true

/-- The call that was the last to put a copy into the queue of an entity. -/
def placer? (s : Traffic) (e : String) (n : Nat) : Option Nat :=
  (s.placements.find? fun p => p.entity = e && p.copy.serial = n).map (·.call)

/-- The call that put a copy there has not told so yet. -/
def Untold (s : Traffic) (e : String) (n : Nat) : Prop := ∃ j, s.placer? e n = some j ∧ s.Owes j

/-- Nothing waits in a queue but what was put there and not told yet. -/
def Quiet (s : Traffic) (e : String) : Prop := ∀ x ∈ s.broker.queue e, s.Untold e x.serial

/-- A receiver is open, or it was closed and that was not told yet. -/
def OpenUntold (s : Traffic) (r : Receiver) : Prop :=
  s.broker.isOpen r = true ∨ ∃ j, s.IsClosing j r

/-! ## What a move tells -/

/-- A move, and what stays true over it as long as nothing is told. -/
structure Follows (s t : Traffic) : Prop where
  now : s.now ≤ t.now
  broadcasts : s.broker.broadcasts ≤ t.broker.broadcasts
  quiet : t.broker.broadcasts = s.broker.broadcasts → ∀ e, s.Quiet e → t.Quiet e
  opened : t.broker.broadcasts = s.broker.broadcasts →
    ∀ r, s.OpenUntold r → t.OpenUntold r

/-- A move that changes neither a queue nor the receivers, and that ends receives
only. -/
theorem Follows.of_frame {s t : Traffic} (now : s.now ≤ t.now)
    (queue : ∀ e, t.broker.queue e = s.broker.queue e)
    (silent : Silent s.broker t.broker) (placements : t.placements = s.placements)
    (calls : ∀ (j : Nat) (x : Entry), s.calls[j]? = some x →
      t.calls[j]? = some x ∨ ∃ began c, x = ⟨began, .on (.receiving c)⟩) : Follows s t where
  now := now
  broadcasts := Nat.le_of_eq silent.broadcasts.symm
  quiet := by
    intro _ e hq x hx
    rw [queue] at hx
    obtain ⟨j, hp, began, c, hj, hc⟩ := hq x hx
    refine ⟨j, by rw [placer?, placements]; exact hp, began, c, ?_, hc⟩
    obtain hj | ⟨began', c', hx⟩ := calls j _ hj
    · exact hj
    · cases hx
      contradiction
  opened := by
    intro _ r hr
    obtain hr | ⟨j, began, c, hj, hc⟩ := hr
    · rw [OpenUntold, isOpen, silent.closed]
      exact .inl hr
    · refine .inr ⟨j, began, c, ?_, hc⟩
      obtain hj | ⟨began', c', hx⟩ := calls j _ hj
      · exact hj
      · cases hx
        contradiction

theorem follows_accept (s : Traffic) (q : Request) : Follows s (s.accept q) := by
  refine .of_frame (Nat.le_refl _) (fun _ => rfl) (.refl _) rfl fun j x hj => .inl ?_
  obtain ⟨hlt, -⟩ := List.getElem?_eq_some_iff.mp hj
  rw [accept, List.getElem?_append_left hlt]
  exact hj

theorem follows_pass (s : Traffic) (ms : Nat) : Follows s (s.pass ms) :=
  .of_frame (Nat.le_add_right _ _) (fun _ => rfl) (.refl _) rfl fun _ _ hj => .inl hj

theorem follows_rearrange (s : Traffic) (locks : List Lock) : Follows s (s.rearrange locks) :=
  .of_frame (Nat.le_refl _) (fun _ => rfl) ⟨rfl, rfl⟩ rfl fun _ _ hj => .inl hj

theorem follows_dropReceive {s : Traffic} {i began : Nat} {c : Receive}
    (hi : s.calls[i]? = some ⟨began, .on (.receiving c)⟩) :
    Follows s (s.dropReceive i began c) := by
  have hs : Silent s.broker (c.drop s.broker) := by
    unfold Receive.drop
    split <;> exact ⟨rfl, rfl⟩
  refine .of_frame (Nat.le_refl _) (c.drop_keepsCopies s.broker).queue hs rfl fun j x hj => ?_
  by_cases hij : i = j
  · subst hij
    rw [hi] at hj
    exact .inr ⟨began, c, (Option.some.inj hj).symm⟩
  · rw [dropReceive, List.getElem?_set_ne hij]
    exact .inl hj

theorem broadcasts_advance (s : Traffic) (i began : Nat) (c : Call) :
    (s.advance i began c).broker.broadcasts =
      s.broker.broadcasts + if c.owesBroadcast then 1 else 0 :=
  c.step_broadcasts s.now s.broker

theorem owesBroadcast_eq_false {s : Traffic} {i began : Nat} {c : Call}
    (hb : (s.advance i began c).broker.broadcasts = s.broker.broadcasts) :
    c.owesBroadcast = false := by
  rw [broadcasts_advance] at hb
  cases hc : c.owesBroadcast with
  | false => rfl
  | true => rw [hc, if_pos rfl] at hb; omega

/-- A copy that a step puts into its queue was last put there by that step. -/
theorem placer?_advance (s : Traffic) (i began : Nat) (c : Call) (e : String) (n : Nat) :
    (s.advance i began c).placer? e n =
      if ((c.transfer s.broker).placements s.broker).any (isFor e n) then some i
      else s.placer? e n := by
  have hnew : (((c.transfer s.broker).placements s.broker).map fun p =>
        (⟨i, p.1, p.2⟩ : Placement)).find? (fun p => p.entity = e && p.copy.serial = n) =
      (((c.transfer s.broker).placements s.broker).find? (isFor e n)).map fun p => ⟨i, p.1, p.2⟩ :=
    List.find?_map
  simp only [placer?, advance, List.find?_append, hnew]
  cases hf : ((c.transfer s.broker).placements s.broker).find? (isFor e n) with
  | none =>
    have hnone : ((c.transfer s.broker).placements s.broker).any (isFor e n) = false := by
      simpa using hf
    rw [hnone]
    rfl
  | some p =>
    have hsome : ((c.transfer s.broker).placements s.broker).any (isFor e n) = true :=
      List.any_eq_true.mpr ⟨p, List.mem_of_find?_eq_some hf, List.find?_some hf⟩
    rw [hsome]
    rfl

/-- A step puts into queues only what it owes to tell, and it marks a receiver as
closed only if it owes to tell that. -/
theorem follows_advance {s : Traffic} {i began : Nat} {c : Call}
    (hi : s.calls[i]? = some ⟨began, .on c⟩) : Follows s (s.advance i began c) where
  now := Nat.le_refl _
  broadcasts := by
    rw [broadcasts_advance]
    exact Nat.le_add_right _ _
  quiet := by
    intro hb e hq x hx
    rw [Untold, placer?_advance]
    by_cases hp : ((c.transfer s.broker).placements s.broker).any (isFor e x.serial) = true
    · obtain ⟨p, hmem, -⟩ := List.any_eq_true.mp hp
      obtain ⟨c', hc', ho⟩ := Call.owesBroadcast_of_places s.now hmem
      rw [if_pos hp]
      exact ⟨i, rfl, began, c', hc' ▸ getElem?_advance hi, ho⟩
    · have hold : x ∈ s.broker.queue e := by
        have hx' : x ∈ ((c.transfer s.broker).apply s.broker).queue e :=
          (c.step_keepsCopies s.now s.broker).queue e ▸ hx
        refine (mem_queue_apply hx').resolve_right fun hmem => hp ?_
        exact List.any_eq_true.mpr ⟨(e, x), hmem, by simp [isFor]⟩
      obtain ⟨j, hj, began', c', hcall, ho⟩ := hq x hold
      rw [if_neg hp]
      refine ⟨j, hj, began', c', ?_, ho⟩
      have hij : i ≠ j := by
        intro hij
        rw [← hij, hi] at hcall
        cases hcall
        rw [owesBroadcast_eq_false hb] at ho
        contradiction
      rw [getElem?_advance_ne hij]
      exact hcall
  opened := by
    intro hb r hr
    obtain hr | ⟨j, began', c', hcall, hc⟩ := hr
    · cases ho : (s.advance i began c).broker.isOpen r with
      | true => exact .inl ho
      | false =>
        obtain ⟨c', hc', hclosing⟩ := Call.isClosing_of_closes hr ho
        exact .inr ⟨i, began, c', hc' ▸ getElem?_advance hi, hclosing⟩
    · by_cases hij : i = j
      · rw [← hij, hi] at hcall
        cases hcall
        obtain ⟨c', hc', hclosing⟩ := Call.isClosing_step hc (owesBroadcast_eq_false hb)
        exact .inr ⟨i, began, c', hc' ▸ getElem?_advance hi, hclosing⟩
      · exact .inr ⟨j, began', c', (getElem?_advance_ne hij).trans hcall, hc⟩

end Traffic

end PeekLock.Broker
