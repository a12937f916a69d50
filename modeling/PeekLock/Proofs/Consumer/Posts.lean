import PeekLock.Consumer.Workshop
import PeekLock.Proofs.Broker.Registrations
import PeekLock.Proofs.Broker.Whereabouts
import PeekLock.Proofs.Consumer.Turns

/-!
# PeekLock.Proofs.Consumer.Posts

Which worker waits for which call.

A worker that receives waits for a receive of the consumer's receiver, and
one that settles for the settlement of its message; every other call goes
on without a worker, and every receive and settlement on its way has one
post (`Tended`).
-/

namespace PeekLock

/-! ## Calls that a worker waits for -/

namespace Broker

/-- The call of an entry, if it is on its way and a worker waits for it. -/
def Entry.attended? : Entry → Option Call
  | ⟨_, .on c⟩ => if c.isUnattended then none else some c
  | _ => none

/-- The call of that number, if it is on its way and a worker waits for it. -/
def attendedAt (calls : List Entry) (i : Nat) : Option Call := calls[i]?.bind Entry.attended?

theorem attendedAt_append (calls : List Entry) (x : Entry) (j : Nat) :
    attendedAt (calls ++ [x]) j = if j = calls.length then x.attended? else attendedAt calls j := by
  unfold attendedAt
  split
  · next h => rw [h, List.getElem?_concat_length, Option.bind_some]
  · next h =>
    obtain hlt | hge := Nat.lt_or_ge j calls.length
    · rw [List.getElem?_append_left hlt]
    · have hlong : calls.length + 1 ≤ j := by omega
      rw [List.getElem?_eq_none hge, List.getElem?_eq_none (by simpa using hlong)]

theorem attendedAt_set {calls : List Entry} {i : Nat} {x : Entry} (hi : calls[i]? = some x)
    (y : Entry) (j : Nat) :
    attendedAt (calls.set i y) j = if j = i then y.attended? else attendedAt calls j := by
  unfold attendedAt
  split
  · next h =>
    obtain ⟨hlt, -⟩ := List.getElem?_eq_some_iff.mp hi
    rw [h, List.getElem?_set_self hlt, Option.bind_some]
  · next h => rw [List.getElem?_set_ne (Ne.symm h)]

/-- A call that goes on without a worker begins. -/
theorem attendedAt_append_of_none {x : Entry} (hx : x.attended? = none) (calls : List Entry)
    (j : Nat) : attendedAt (calls ++ [x]) j = attendedAt calls j := by
  rw [attendedAt_append]
  split
  · next h => rw [hx, attendedAt, List.getElem?_eq_none (Nat.le_of_eq h.symm), Option.bind_none]
  · rfl

/-- A call that goes on without a worker takes a step. -/
theorem attendedAt_set_of_none {calls : List Entry} {i : Nat} {x y : Entry}
    (hi : calls[i]? = some x) (hx : x.attended? = none) (hy : y.attended? = none) (j : Nat) :
    attendedAt (calls.set i y) j = attendedAt calls j := by
  rw [attendedAt_set hi]
  split
  · next h => rw [h, hy, attendedAt, hi, Option.bind_some, hx]
  · rfl

theorem attendedAt_of_getElem? {calls : List Entry} {i : Nat} {x : Entry}
    (hi : calls[i]? = some x) : attendedAt calls i = x.attended? := by
  rw [attendedAt, hi, Option.bind_some]

theorem getElem?_of_attendedAt {calls : List Entry} {i : Nat} {c : Call}
    (h : attendedAt calls i = some c) : ∃ began, calls[i]? = some ⟨began, .on c⟩ := by
  obtain ⟨x, hx, hc⟩ := Option.bind_eq_some_iff.mp h
  unfold Entry.attended? at hc
  split at hc
  · next began c' =>
    split at hc
    · contradiction
    · cases hc
      exact ⟨began, hx⟩
  · contradiction

private theorem attended?_map_of_unattended {κ α : Type} (began : Nat) (point : κ → Call)
    (result : α → Outcome) (h : ∀ k, (point k).isUnattended = true) (p : Progress κ α) :
    Entry.attended? ⟨began, p.map point result⟩ = none := by
  cases p with
  | on k => exact if_pos (h k)
  | done a => rfl

/-- A call that goes on without a worker does so for good. -/
theorem Call.attended?_step {c : Call} (h : c.isUnattended = true) (now began : Nat) (b : Broker) :
    Entry.attended? ⟨began, (c.step now b).progress⟩ = none := by
  cases c with
  | receiving c => contradiction
  | settling c => contradiction
  | subscribing topic name => rfl
  | arranging faults => rfl
  | _ => exact attended?_map_of_unattended began _ _ (fun _ => rfl) _

/-- What comes from outside goes on without a worker. -/
theorem Request.attended?_call {q : Request} (h : q.isOutside = true) (began : Nat) :
    Entry.attended? ⟨began, .on q.call⟩ = none := by
  cases q <;> first | rfl | contradiction

/-- A receive that does not end with messages delivers nothing. -/
theorem Receive.deliveries_eq_nil {now : Nat} {b : Broker} {c : Receive}
    (h : ∀ messages, (c.step now b).progress ≠ .done (.ok messages)) :
    ((Call.receiving c).transfer b).deliveries b = [] := by
  refine Classical.byContradiction fun hne => ?_
  cases ht : (Call.receiving c).transfer b with
  | take r most =>
    obtain ⟨k, hk, hp⟩ := Traffic.progress_of_take ht hne
    cases hk
    obtain ⟨result, hdone, hresult⟩ := Progress.map_eq_done (hp :)
    cases hresult
    exact h _ hdone
  | _ => rw [ht] at hne; exact hne rfl

/-- A settlement delivers nothing. -/
theorem Settle.deliveries_eq_nil (b : Broker) (c : Settle) :
    ((Call.settling c).transfer b).deliveries b = [] := by
  cases ht : (Call.settling c).transfer b with
  | take r most =>
    obtain ⟨_, _, _, hc⟩ := Call.looking_of_take ht
    cases hc
  | _ => rfl

/-- A call that goes on without a worker delivers nothing. -/
theorem Call.deliveries_eq_nil {c : Call} (h : c.isUnattended = true) (b : Broker) :
    (c.transfer b).deliveries b = [] := by
  cases ht : c.transfer b with
  | take r most =>
    obtain ⟨_, _, _, rfl⟩ := looking_of_take ht
    contradiction
  | _ => rfl

end Broker

/-! ## Posts and their errands -/

/-- The call that a worker waits for. -/
def Errand.call? : Errand → Option Nat
  | .receiving i => some i
  | .settling i => some i
  | _ => .none

/-- Whether a worker waits for no call of the bus. -/
def Worker.Stage.isResting : Worker.Stage → Bool
  | .receiving => false
  | .settling .. => false
  | _ => true

/-- A worker waits for what its stage says. -/
inductive Fits (r : Broker.Receiver) (calls : List Broker.Entry) :
    Worker.Stage → Errand → Prop where
  | resting {stage : Worker.Stage} {errand : Errand} (hs : stage.isResting = true)
    (he : errand.call? = none) : Fits r calls stage errand
  | receiving (i : Nat) (c : Broker.Receive)
    (hi : Broker.attendedAt calls i = some (.receiving c)) (hr : c.receiver = r) :
    Fits r calls .receiving (.receiving i)
  | settling (i : Nat) (c : Broker.Settle) (m : Message) (v : Verdict) (rest : List Message)
    (hi : Broker.attendedAt calls i = some (.settling c)) (hr : c.receiver = r)
    (ht : c.token = m.lockToken) (hv : c.verdict = v) :
    Fits r calls (.settling m v rest) (.settling i)

namespace Fits

variable {r : Broker.Receiver} {calls calls' : List Broker.Entry} {stage : Worker.Stage}
  {errand : Errand}

/-- The call that a worker waits for is on its way. -/
theorem isSome (h : Fits r calls stage errand) {i : Nat} (he : errand.call? = some i) :
    (Broker.attendedAt calls i).isSome = true := by
  cases h with
  | resting _ hn => rw [hn] at he; contradiction
  | receiving j c hi =>
    cases he
    rw [hi]
    rfl
  | settling j c m v rest hi =>
    cases he
    rw [hi]
    rfl

/-- A worker that rests waits for no call. -/
theorem call?_of_isResting (h : Fits r calls stage errand) (hs : stage.isResting = true) :
    errand.call? = none := by
  cases h with
  | resting _ he => exact he
  | receiving => contradiction
  | settling => contradiction

theorem of_frame (h : Fits r calls stage errand)
    (same : ∀ i, errand.call? = some i → Broker.attendedAt calls' i = Broker.attendedAt calls i) :
    Fits r calls' stage errand := by
  cases h with
  | resting hs he => exact .resting hs he
  | receiving i c hi hr => exact .receiving i c ((same i rfl).trans hi) hr
  | settling i c m v rest hi hr ht hv =>
    exact .settling i c m v rest ((same i rfl).trans hi) hr ht hv

end Fits

/-- A worker comes to a stage, and waits for something else. -/
def Post.at (p : Post) (stage : Worker.Stage) (errand : Errand) : Post :=
  { p with stage := stage, errand := errand }

/-- Whether a worker waits for the call of that number. -/
def Post.awaits (i : Nat) (p : Post) : Bool := p.errand.call? = some i

/-- Every worker waits for what its stage says, and every call that needs a worker has one. -/
structure Tended (r : Broker.Receiver) (calls : List Broker.Entry) (posts : List Post) : Prop where
  fits : ∀ (k : Nat) p, posts[k]? = some p → Fits r calls p.stage p.errand
  tended : ∀ i, posts.countP (Post.awaits i) = if (Broker.attendedAt calls i).isSome then 1 else 0

namespace Tended

variable {r : Broker.Receiver} {calls calls' : List Broker.Entry} {posts : List Post}

/-- Two workers never wait for one call. -/
theorem eq_of_awaits (h : Tended r calls posts) {i j k : Nat} {p p' : Post}
    (hj : posts[j]? = some p) (hk : posts[k]? = some p') (hp : p.errand.call? = some i)
    (hp' : p'.errand.call? = some i) : j = k := by
  have hle : posts.countP (Post.awaits i) ≤ 1 := by
    rw [h.tended]
    split <;> omega
  exact eq_of_countP_le_one hle hj (decide_eq_true hp) hk (decide_eq_true hp')

/-- A call that needs a worker has one. -/
theorem exists_post (h : Tended r calls posts) {i : Nat}
    (hi : (Broker.attendedAt calls i).isSome = true) :
    ∃ (k : Nat) (p : Post), posts[k]? = some p ∧ p.errand.call? = some i := by
  have hpos : 0 < posts.countP (Post.awaits i) := by
    rw [h.tended, if_pos hi]
    exact Nat.one_pos
  obtain ⟨p, hp, hi⟩ := List.countP_pos_iff.mp hpos
  obtain ⟨k, hk⟩ := List.mem_iff_getElem?.mp hp
  exact ⟨k, p, hk, of_decide_eq_true hi⟩

theorem of_calls (h : Tended r calls posts)
    (same : ∀ i, Broker.attendedAt calls' i = Broker.attendedAt calls i) :
    Tended r calls' posts where
  fits k p hk := (h.fits k p hk).of_frame fun i _ => same i
  tended i := by
    rw [same]
    exact h.tended i

/-- A worker turns from one call to another: it leaves no call behind that is on its
way, and takes up none that others wait for. -/
theorem set (h : Tended r calls posts) {k : Nat} {p : Post} (hk : posts[k]? = some p)
    {stage : Worker.Stage} {errand : Errand} (hf : Fits r calls' stage errand)
    (other : ∀ i, p.errand.call? ≠ some i → errand.call? ≠ some i →
      Broker.attendedAt calls' i = Broker.attendedAt calls i)
    (left : ∀ i, p.errand.call? = some i → errand.call? ≠ some i →
      Broker.attendedAt calls' i = none)
    (taken : ∀ i, p.errand.call? ≠ some i → errand.call? = some i →
      Broker.attendedAt calls i = none) :
    Tended r calls' (posts.set k (p.at stage errand)) := by
  obtain ⟨hlt, -⟩ := List.getElem?_eq_some_iff.mp hk
  refine ⟨fun j p' hj => ?_, fun i => ?_⟩
  · by_cases hkj : k = j
    · subst hkj
      rw [List.getElem?_set_self hlt] at hj
      cases hj
      exact hf
    · rw [List.getElem?_set_ne hkj] at hj
      have hold := h.fits j p' hj
      refine hold.of_frame fun i hi => other i (fun hp => ?_) fun he => ?_
      · exact hkj (h.eq_of_awaits hk hj hp hi)
      · have hsome := hold.isSome hi
        rw [taken i (fun hp => hkj (h.eq_of_awaits hk hj hp hi)) he] at hsome
        contradiction
  · have hc := countP_set_add (Post.awaits i) hk (p.at stage errand)
    have hn := h.tended i
    have hp : Post.awaits i p = decide (p.errand.call? = some i) := rfl
    have hp' : Post.awaits i (p.at stage errand) = decide (errand.call? = some i) := rfl
    rw [hp, hp', hn] at hc
    by_cases hold : p.errand.call? = some i
    · rw [if_pos ((h.fits k p hk).isSome hold), if_pos (decide_eq_true hold)] at hc
      by_cases hnew : errand.call? = some i
      · rw [if_pos (decide_eq_true hnew)] at hc
        rw [if_pos (hf.isSome hnew)]
        omega
      · rw [if_neg (by simpa using hnew)] at hc
        rw [left i hold hnew, if_neg (by simp)]
        omega
    · by_cases hnew : errand.call? = some i
      · rw [taken i hold hnew] at hc
        rw [if_pos (hf.isSome hnew)]
        simp [hold, hnew] at hc
        omega
      · rw [other i hold hnew]
        simp [hold, hnew] at hc
        omega

/-- A worker that waits for no call goes on to wait for none. -/
theorem rest (h : Tended r calls posts) {k : Nat} {p : Post} (hk : posts[k]? = some p)
    (hp : p.errand.call? = none) {stage : Worker.Stage} {errand : Errand}
    (hs : stage.isResting = true) (he : errand.call? = none) :
    Tended r calls (posts.set k (p.at stage errand)) :=
  h.set hk (.resting hs he) (fun _ _ _ => rfl) (fun i hi => by rw [hp] at hi; contradiction)
    (fun i _ hi => by rw [he] at hi; contradiction)

/-- A worker that waits for no call begins one. -/
theorem begin (h : Tended r calls posts) {k : Nat} {p : Post} (hk : posts[k]? = some p)
    (hp : p.errand.call? = none) {x : Broker.Entry} {stage : Worker.Stage} {errand : Errand}
    (hf : Fits r (calls ++ [x]) stage errand) (he : errand.call? = some calls.length) :
    Tended r (calls ++ [x]) (posts.set k (p.at stage errand)) := by
  refine h.set hk hf (fun i _ hi => ?_) (fun i hi => ?_) (fun i _ hi => ?_)
  · rw [Broker.attendedAt_append, if_neg]
    rintro rfl
    exact hi he
  · rw [hp] at hi
    contradiction
  · rw [he] at hi
    cases hi
    rw [Broker.attendedAt, List.getElem?_eq_none (Nat.le_refl _), Option.bind_none]

/-- The call that a worker waits for is over, and it waits for none then. -/
theorem finish (h : Tended r calls posts) {k i : Nat} {p : Post} (hk : posts[k]? = some p)
    (hp : p.errand.call? = some i) {x y : Broker.Entry} (hi : calls[i]? = some x)
    (hy : y.attended? = none) {stage : Worker.Stage} {errand : Errand}
    (hs : stage.isResting = true) (he : errand.call? = none) :
    Tended r (calls.set i y) (posts.set k (p.at stage errand)) := by
  refine h.set hk (.resting hs he) (fun j hj _ => ?_) (fun j hj _ => ?_) (fun j _ hj => ?_)
  · rw [Broker.attendedAt_set hi, if_neg]
    rintro rfl
    exact hj hp
  · rw [hp] at hj
    cases hj
    rw [Broker.attendedAt_set hi, if_pos rfl, hy]
  · rw [he] at hj
    contradiction

/-- The call that a worker waits for goes on. -/
theorem goOn (h : Tended r calls posts) {k i : Nat} {p : Post} (hk : posts[k]? = some p)
    (hp : p.errand.call? = some i) {x y : Broker.Entry} (hi : calls[i]? = some x)
    (hf : Fits r (calls.set i y) p.stage p.errand) :
    Tended r (calls.set i y) posts := by
  have hset : posts.set k (p.at p.stage p.errand) = posts := by
    obtain ⟨hlt, hx⟩ := List.getElem?_eq_some_iff.mp hk
    rw [← hx]
    exact List.set_getElem_self hlt
  rw [← hset]
  refine h.set hk hf (fun j hj _ => ?_) (fun j hj hj' => (hj' hj).elim)
    (fun j hj hj' => (hj hj').elim)
  rw [Broker.attendedAt_set hi, if_neg]
  rintro rfl
  exact hj hp

/-- Workers that start wait for no call. -/
theorem hire (h : Tended r calls posts) {new : List Post}
    (hn : ∀ p ∈ new, p.stage.isResting = true ∧ p.errand.call? = none) :
    Tended r calls (posts ++ new) where
  fits k p hk := by
    rw [List.getElem?_append] at hk
    split at hk
    · exact h.fits k p hk
    · obtain ⟨hs, he⟩ := hn p (List.mem_of_getElem? hk)
      exact .resting hs he
  tended i := by
    have hzero : new.countP (Post.awaits i) = 0 := by
      rw [List.countP_eq_zero]
      intro p hp
      simp [Post.awaits, (hn p hp).2]
    rw [List.countP_append, hzero, Nat.add_zero]
    exact h.tended i

end Tended

end PeekLock
