import PeekLock.Proofs.Counting
import PeekLock.Proofs.Remote.Claims
import PeekLock.Proofs.Remote.LockNames
import PeekLock.Proofs.Remote.Runs

/-!
# PeekLock.Proofs.Remote.Soundness

The rules that lanes, receivers and calls keep.

A lane without a link has no unsettled messages, and the tokens of a lane
carry its number.  As long as a receiver is open, its lanes are listed in
order and numbered by their positions.  A receive that waits at a lane
finds it as it left it: whoever changes a lane is alone inside its gate.
-/

namespace PeekLock.Remote

/-! ## Lanes and receivers -/

/-- What holds of a lane. -/
structure Lane.Sound (l : Lane) : Prop where
  word : l.number ≤ Decimal.maxU64
  gone : l.link = none → l.inFlight = []
  named : ∀ x ∈ l.inFlight, ∃ supply used, x.1 = lockToken supply l.number used

theorem Lane.sound_default : (default : Lane).Sound := ⟨Nat.zero_le _, fun _ => rfl, nofun⟩

/-- A new lane. -/
theorem Lane.sound_new {number : Nat} (h : number ≤ Decimal.maxU64) (link : Option Nat) :
    Lane.Sound { number := number, link := link } :=
  ⟨h, fun _ => rfl, nofun⟩

/-- A lane that keeps some of its messages. -/
theorem Lane.Sound.filter {l : Lane} (h : l.Sound) (keep : LockToken × Incoming → Bool) :
    Lane.Sound { l with inFlight := l.inFlight.filter keep } where
  word := h.word
  gone hl := by
    change l.inFlight.filter keep = []
    rw [h.gone hl]
    rfl
  named x hx := h.named x (List.mem_filter.mp hx).1

/-- Tokens that are drawn together. -/
theorem Client.mem_tokenAll {supply : Identifier.Supply} {number issued : Nat}
    {messages : List Incoming} {x : LockToken × Incoming}
    (h : x ∈ Client.tokenAll supply number issued messages) : ∃ used, issued ≤ used ∧
      used < issued + messages.length ∧ x.1 = lockToken supply number used := by
  induction messages generalizing issued with
  | nil => contradiction
  | cons m rest ih =>
    rw [Client.tokenAll] at h
    rw [List.length_cons]
    obtain rfl | h := List.mem_cons.mp h
    · exact ⟨issued, Nat.le_refl _, by omega, rfl⟩
    · obtain ⟨used, hle, hlt, he⟩ := ih h
      exact ⟨used, by omega, by omega, he⟩

/-- What holds of a receiver. -/
structure LaneSet.Sound (set : LaneSet) : Prop where
  lanes : ∀ l ∈ set.lanes, l.Sound
  listed : ∀ p ∈ set.listed, p < set.lanes.length
  inOrder : set.closed = false → set.listed = List.range set.lanes.length
  numbered : set.closed = false → ∀ (p : Nat) (l : Lane), set.lanes[p]? = some l → l.number = p

namespace LaneSet.Sound

variable {set : LaneSet}

theorem default : (default : LaneSet).Sound := ⟨nofun, nofun, fun _ => rfl, nofun⟩

theorem fresh (path : EntityPath) (link : Nat) : (LaneSet.fresh path link).Sound where
  lanes l hl := by
    rw [List.mem_singleton.mp hl]
    exact Lane.sound_new (Nat.zero_le _) _
  listed p hp := by
    rw [List.mem_singleton.mp hp]
    exact Nat.one_pos
  inOrder _ := rfl
  numbered _ p l hl := by
    cases p with
    | zero =>
      cases hl
      rfl
    | succ p => contradiction

/-- A lane is replaced by another with the same number. -/
theorem setLane (h : set.Sound) (p : Nat) {l : Lane} (hl : l.Sound)
    (hn : l.number = (set.lanes.getD p Inhabited.default).number) :
    LaneSet.Sound { set with lanes := set.lanes.set p l } where
  lanes k hk := by
    obtain hk | rfl := List.mem_or_eq_of_mem_set hk
    · exact h.lanes k hk
    · exact hl
  listed q hq := Nat.lt_of_lt_of_eq (h.listed q hq) List.length_set.symm
  inOrder hc := (h.inOrder hc).trans (congrArg List.range List.length_set.symm)
  numbered hc q k hk := by
    rw [List.getElem?_set] at hk
    split at hk
    · next hpq =>
      subst hpq
      split at hk
      · next hlt =>
        cases hk
        rw [hn, List.getD_eq_getElem _ _ hlt]
        exact h.numbered hc p _ (List.getElem?_eq_getElem hlt)
      · contradiction
    · exact h.numbered hc q k hk

/-- Another lane is added. -/
theorem addLane (h : set.Sound) (hw : set.listed.length ≤ Decimal.maxU64) (link : Nat) :
    LaneSet.Sound
      { set with
        lanes := set.lanes ++ [{ number := set.listed.length, link := some link }]
        listed := set.listed ++ [set.lanes.length] } where
  lanes l hl := by
    obtain hl | hl := List.mem_append.mp hl
    · exact h.lanes l hl
    · rw [List.mem_singleton.mp hl]
      exact Lane.sound_new hw _
  listed p hp := by
    rw [List.length_append, List.length_singleton]
    obtain hp | hp := List.mem_append.mp hp
    · exact Nat.lt_succ_of_lt (h.listed p hp)
    · rw [List.mem_singleton.mp hp]
      exact Nat.lt_succ_self _
  inOrder hc := by
    change set.listed ++ _ = _
    rw [h.inOrder hc, List.length_append, List.length_singleton, List.range_succ]
  numbered hc p l hl := by
    rw [List.getElem?_append] at hl
    split at hl
    · exact h.numbered hc p l hl
    · next hp =>
      obtain ⟨hlt, hl⟩ := List.getElem?_eq_some_iff.mp hl
      rw [List.getElem_singleton] at hl
      rw [List.length_singleton] at hlt
      rw [← hl, h.inOrder hc, List.length_range]
      change set.lanes.length = p
      omega

/-- A receiver is marked as closed. -/
theorem mark (h : set.Sound) : LaneSet.Sound { set with closed := true } :=
  ⟨h.lanes, h.listed, nofun, nofun⟩

/-- The lanes of a closed receiver are taken off the list. -/
theorem unlist (h : set.Sound) (hc : set.closed = true) :
    LaneSet.Sound { set with listed := [] } :=
  ⟨h.lanes, nofun, fun ho => by rw [hc] at ho; contradiction,
    fun ho => by rw [hc] at ho; contradiction⟩

end LaneSet.Sound

namespace Client

/-- What holds of a client. -/
def Sound (s : Client) : Prop := ∀ r, (s.receiver r).Sound

variable {s t : Client} {r p : Nat}

theorem Sound.lane (h : s.Sound) (r p : Nat) : (s.lane r p).Sound := by
  by_cases hp : p < (s.receiver r).lanes.length
  · exact (h r).lanes _ (mem_lanes hp)
  · rw [Client.lane, List.getD_eq_default _ _ (Nat.le_of_not_lt hp)]
    exact Lane.sound_default

theorem Sound.setReceiver (h : s.Sound) {set : LaneSet} (hs : set.Sound) :
    (s.setReceiver r set).Sound := by
  intro r'
  obtain he | ⟨-, -, he⟩ := receiver_setReceiver s r r' set
  · exact he ▸ h r'
  · rw [he]
    exact hs

theorem Sound.setLane (h : s.Sound) {l : Lane} (hl : l.Sound)
    (hn : l.number = (s.lane r p).number) : (s.setLane r p l).Sound :=
  h.setReceiver ((h r).setLane p hl hn)

theorem Sound.withMore (h : s.Sound) {link : Nat} (hl : (s.lane r p).link = some link)
    {tokened : List (LockToken × Incoming)}
    (ht : ∀ x ∈ tokened, ∃ supply used, x.1 = lockToken supply (s.lane r p).number used) :
    (s.withMore r p tokened).Sound := by
  have hlane := h.lane r p
  refine h.setLane ⟨hlane.word, fun hn => ?_, fun x hx => ?_⟩ rfl
  · change (s.lane r p).link = none at hn
    rw [hl] at hn
    contradiction
  · exact (List.mem_append.mp hx).elim (hlane.named x) (ht x)

theorem Sound.without (h : s.Sound) (token : LockToken) : (s.without r p token).Sound :=
  h.setLane ((h.lane r p).filter _) rfl

theorem Sound.emptied (h : s.Sound) : (s.emptied r p).Sound :=
  h.setLane ⟨(h.lane r p).word, fun _ => rfl, nofun⟩ rfl

theorem Sound.append (h : s.Sound) {set : LaneSet} (hs : set.Sound) :
    { s with receivers := s.receivers ++ [set] }.Sound := by
  intro r
  by_cases hr : r < s.receivers.length
  · exact receiver_append set hr ▸ h r
  · by_cases he : r = s.receivers.length
    · rw [he, receiver_append_self]
      exact hs
    · rw [receiver_of_le]
      · exact .default
      · rw [List.length_append, List.length_singleton]
        omega

theorem sound_congr (h : s.Sound) (ht : t.receivers = s.receivers) : t.Sound := fun r =>
  receiver_congr ht r ▸ h r

end Client

/-! ## Calls -/

/-- What holds of a receive on its way. -/
structure Receive.Fits (s : Client) (c : Receive) : Prop where
  known : c.receiver < s.receivers.length
  pulling : ∀ position ticket link deadline, c.point = .pulling position ticket link deadline →
    (s.lane c.receiver position).link = some link ∧ (s.lane c.receiver position).inFlight = []

/-- What holds of a settlement on its way. -/
structure Settle.Fits (s : Client) (c : Settle) : Prop where
  known : c.receiver < s.receivers.length
  finding : ∀ number list, c.point = .finding number list → laneOf c.token = some number
  entering : ∀ position ticket, c.point = .entering position ticket →
    (s.receiver c.receiver).closed = false → laneOf c.token = some position

/-- What holds of a close on its way. -/
structure Close.Fits (s : Client) (c : Close) : Prop where
  known : c.receiver < s.receivers.length
  marked : c.point ≠ .marking → (s.receiver c.receiver).closed = true
  rest : ∀ p ∈ c.rest s, p < (s.receiver c.receiver).lanes.length

/-- What holds of a call on its way. -/
def Call.Fits (s : Client) : Call → Prop
  | .receiving c => c.Fits s
  | .settling c => c.Fits s
  | .closing c => c.Fits s
  | _ => True

theorem Call.Fits.known {s : Client} {c : Call} (h : c.Fits s) :
    ∀ r, c.receiver? = some r → r < s.receivers.length := by
  intro r hr
  cases c with
  | receiving c => cases hr; exact Receive.Fits.known h
  | settling c => cases hr; exact Settle.Fits.known h
  | closing c => cases hr; exact Close.Fits.known h
  | _ => contradiction

/-- A call that has just begun. -/
theorem Demand.fits_call {s : Client} {q : Demand}
    (h : ∀ r, q.receiver? = some r → r < s.receivers.length) : q.call.Fits s := by
  cases q with
  | receive r most timeout => exact ⟨h r rfl, nofun⟩
  | settle r token verdict => exact ⟨h r rfl, nofun, nofun⟩
  | close r => exact ⟨h r rfl, fun hc => (hc rfl).elim, nofun⟩
  | _ => trivial

/-! ## Steps -/

/-- The lane that the next step of a call may change. -/
def Call.touched? : Call → Option (Nat × Nat)
  | .receiving c => match c.point with
    | .pulling position .. => some (c.receiver, position)
    | _ => none
  | .settling c => match c.point with
    | .entering position _ => some (c.receiver, position)
    | _ => none
  | .closing c => match c.point with
    | .entering position .. => some (c.receiver, position)
    | _ => none
  | _ => none

/-- Whoever changes a lane is inside its gate, alone. -/
theorem Call.claim_of_touched {now : Nat} {s : Client} {c : Call} {r p : Nat} {others : List Claim}
    (h : s.Keeps (c.claims ++ others)) (hready : c.isReady now s = true)
    (ht : c.touched? = some (r, p)) :
    ∃ k, c.claims = [k] ∧ k.site = .lane r p ∧ k.ticket.access = .sole ∧
      k.ticket ∈ (s.gate (.lane r p)).inside := by
  cases c with
  | receiving c =>
    obtain ⟨r', most, timeout, point⟩ := c
    cases point with
    | pulling position ticket link deadline =>
      cases ht
      exact ⟨_, rfl, rfl, rfl, h.entered _ List.mem_cons_self rfl⟩
    | _ => contradiction
  | settling c =>
    obtain ⟨r', token, verdict, point⟩ := c
    cases point with
    | entering position ticket =>
      cases ht
      exact ⟨_, rfl, rfl, rfl, h.inside_of_admits List.mem_cons_self hready⟩
    | _ => contradiction
  | closing c =>
    obtain ⟨r', point⟩ := c
    cases point with
    | entering position ticket rest tally =>
      cases ht
      exact ⟨_, rfl, rfl, rfl, h.inside_of_admits List.mem_cons_self hready⟩
    | _ => contradiction
  | _ => contradiction

/-- A call that holds a lane keeps all others from changing it. -/
theorem Call.not_touched {now : Nat} {s : Client} {c : Call} {r p ticket : Nat}
    {others : List Claim} (h : s.Keeps (c.claims ++ others)) (hready : c.isReady now s = true)
    (hk : .holding (.lane r p) ticket ∈ others) : c.touched? ≠ some (r, p) := by
  intro ht
  obtain ⟨k, hc, hs, ha, hi⟩ := c.claim_of_touched h hready ht
  rw [hc] at h
  rw [← hs] at hi
  have hj := h.entered _ (List.mem_append_right _ hk) rfl
  rw [h.shared_of_inside hk hs.symm hi (hs ▸ hj)] at ha
  contradiction

/-- A close that goes on with lanes that there are. -/
theorem Close.GoesOn.fits {t : Client} {c : Close} {lanes : List Nat} {p : Progress Call Outcome}
    {k : Call} (h : c.GoesOn lanes p) (hp : p = .on k) (hknown : c.receiver < t.receivers.length)
    (hclosed : (t.receiver c.receiver).closed = true)
    (hl : ∀ q ∈ lanes, q < (t.receiver c.receiver).lanes.length) : k.Fits t := by
  obtain ⟨result, rfl⟩ | ⟨position, ticket, rest, tally, rfl, rfl⟩ := h
  · contradiction
  · cases hp
    exact ⟨hknown, fun _ => hclosed, fun q hq => hl q (List.mem_cons_of_mem _ hq)⟩

/-! ## Deeds -/

/-- Nothing goes away and nothing is opened again. -/
structure Client.Grows (s t : Client) : Prop where
  receivers : s.receivers.length ≤ t.receivers.length
  lanes : ∀ r, (s.receiver r).lanes.length ≤ (t.receiver r).lanes.length
  closed : ∀ r, (s.receiver r).closed = true → (t.receiver r).closed = true

namespace Client

variable {s t u : Client}

theorem Grows.refl (s : Client) : s.Grows s := ⟨Nat.le_refl _, fun _ => Nat.le_refl _, fun _ => id⟩

theorem Grows.congr (h : s.Grows t) (hu : u.receivers = t.receivers) : s.Grows u where
  receivers := Nat.le_trans h.receivers (Nat.le_of_eq (congrArg List.length hu.symm))
  lanes r := receiver_congr hu r ▸ h.lanes r
  closed r := receiver_congr hu r ▸ h.closed r

theorem Grows.setReceiver {r : Nat} {set : LaneSet}
    (hl : (s.receiver r).lanes.length ≤ set.lanes.length)
    (hc : (s.receiver r).closed = true → set.closed = true) : s.Grows (s.setReceiver r set) where
  receivers := Nat.le_of_eq (length_setReceiver s r set).symm
  lanes r' := by
    obtain he | ⟨rfl, -, he⟩ := receiver_setReceiver s r r' set
    · exact Nat.le_of_eq (congrArg (·.lanes.length) he.symm)
    · rw [he]
      exact hl
  closed r' h := by
    obtain he | ⟨rfl, -, he⟩ := receiver_setReceiver s r r' set
    · exact (congrArg (·.closed) he).trans h
    · exact (congrArg (·.closed) he).trans (hc h)

theorem Grows.setLane (s : Client) (r p : Nat) (l : Lane) : s.Grows (s.setLane r p l) :=
  .setReceiver (Nat.le_of_eq List.length_set.symm) id

theorem Grows.addLane (s : Client) (r link : Nat) : s.Grows (s.addLane r link).2 := by
  refine .setReceiver ?_ id
  rw [List.length_append]
  exact Nat.le_add_right _ _

theorem Grows.marked (s : Client) (r : Nat) : s.Grows (s.marked r) :=
  .setReceiver (Nat.le_refl _) fun _ => rfl

theorem Grows.unlisted (s : Client) (r : Nat) : s.Grows (s.unlisted r) :=
  .setReceiver (Nat.le_refl _) id

theorem Grows.append (s : Client) (set : LaneSet) :
    s.Grows { s with receivers := s.receivers ++ [set] } := by
  refine ⟨?_, fun r => ?_, fun r hc => ?_⟩
  · rw [List.length_append]
    exact Nat.le_add_right _ _
  all_goals by_cases hr : r < s.receivers.length
  · exact Nat.le_of_eq (congrArg (·.lanes.length) (receiver_append set hr).symm)
  · rw [receiver_of_le (Nat.le_of_not_lt hr)]
    exact Nat.zero_le _
  · rw [receiver_append set hr]
    exact hc
  · rw [receiver_of_le (Nat.le_of_not_lt hr)] at hc
    contradiction

end Client

namespace Deed

variable {s t : Client} {c : Call} {sets : List LaneSet} {p : Progress Call Outcome}

theorem grows (h : Deed s c sets p) (ht : t.receivers = sets) : s.Grows t := by
  cases h with
  | creates c path link => exact (Client.Grows.append s (.fresh path link)).congr ht
  | adds => exact (Client.Grows.addLane ..).congr ht
  | handsOut | asks | misses | disposes => exact (Client.Grows.setLane ..).congr ht
  | marks => exact (Client.Grows.marked ..).congr ht
  | unlists => exact (Client.Grows.unlisted ..).congr ht
  | _ => exact (Client.Grows.refl s).congr ht

/-- A lane that is not touched stays as it is. -/
theorem lane_eq (h : Deed s c sets p) (ht : t.receivers = sets) {r q : Nat}
    (hq : q < (s.receiver r).lanes.length) (hn : c.touched? ≠ some (r, q)) :
    t.lane r q = s.lane r q := by
  have hother {r' q' : Nat} {l : Lane} (hs : t.receivers = (s.setLane r' q' l).receivers)
      (hc : c.touched? = some (r', q')) : t.lane r q = s.lane r q := by
    rw [Client.lane_congr hs]
    refine Client.lane_setLane_ne ?_ l
    rintro ⟨rfl, rfl⟩
    exact hn hc
  cases h with
  | creates c path link =>
    have hs : t.receivers =
        { s with receivers := s.receivers ++ [LaneSet.fresh path link] }.receivers := ht
    exact (Client.lane_congr hs r q).trans (Client.lane_append _ hq)
  | adds c list ticket link problem =>
    rw [Client.lane_congr ht]
    exact Client.lane_addLane_ne (fun hr => hr ▸ hq) link
  | handsOut c position ticket link deadline hc =>
    exact hother ht (by simp only [Call.touched?, hc])
  | asks c position ticket link m hc => exact hother ht (by simp only [Call.touched?, hc])
  | misses c position ticket m hc => exact hother ht (by simp only [Call.touched?, hc])
  | disposes c position ticket rest tally hc =>
    exact hother ht (by simp only [Call.touched?, hc])
  | marks c => exact (Client.lane_congr ht r q).trans (Client.lane_setReceiver rfl)
  | unlists c => exact (Client.lane_congr ht r q).trans (Client.lane_setReceiver rfl)
  | _ => exact Client.lane_congr ht r q

/-- The rules for lanes and receivers are kept. -/
theorem sound (h : Deed s c sets p) (ht : t.receivers = sets) (hs : s.Sound) (hf : c.Fits s)
    (ho : c.overflowing? s = none) : t.Sound := by
  cases h with
  | creates c path link =>
    exact Client.sound_congr (s := { s with receivers := _ }) (hs.append (.fresh path link)) ht
  | adds c list ticket link problem hc =>
    refine Client.sound_congr (hs.setReceiver ((hs c.receiver).addLane ?_ link)) ht
    simp only [Call.overflowing?, hc] at ho
    split at ho
    · next hw => exact hw
    · contradiction
  | handsOut c position ticket link deadline hc tokened hn =>
    obtain ⟨hl, -⟩ := Receive.Fits.pulling hf position ticket link deadline hc
    refine Client.sound_congr (hs.withMore hl fun x hx => ?_) ht
    rw [hn] at hx
    obtain ⟨used, -, -, he⟩ := Client.mem_tokenAll hx
    exact ⟨_, used, he⟩
  | asks c => exact Client.sound_congr (hs.without c.token) ht
  | misses c => exact Client.sound_congr (hs.without c.token) ht
  | disposes => exact Client.sound_congr hs.emptied ht
  | marks c => exact Client.sound_congr (hs.setReceiver (hs c.receiver).mark) ht
  | unlists c list hc =>
    have hclosed := Close.Fits.marked hf fun hm => by rw [hc] at hm; contradiction
    exact Client.sound_congr (hs.setReceiver ((hs c.receiver).unlist hclosed)) ht
  | _ => exact Client.sound_congr hs ht

/-- The rules for the call that takes the step are kept. -/
theorem fits (h : Deed s c sets p) (ht : t.receivers = sets) (hs : s.Sound) (hf : c.Fits s)
    (ho : c.overflowing? s = none) {k : Call} (hp : p = .on k) : k.Fits t := by
  have hg := h.grows ht
  have hsound := h.sound ht hs hf ho
  have hknown {r : Nat} (hr : c.receiver? = some r) : r < t.receivers.length :=
    Nat.lt_of_lt_of_le (hf.known r hr) hg.receivers
  cases h with
  | sends c p =>
    obtain ⟨c', -, rfl⟩ := Progress.map_eq_on hp
    trivial
  | opens c p =>
    obtain ⟨c', -, rfl⟩ := Progress.map_eq_on hp
    trivial
  | queues c hc point hn =>
    cases hp
    refine ⟨hknown rfl, fun position ticket link deadline hc => ?_⟩
    cases hc
    contradiction
  | pulls c hc position ticket link deadline hl he =>
    cases hp
    refine ⟨hknown rfl, fun _ _ _ _ hc => ?_⟩
    cases hc
    rw [Client.lane_congr ht]
    exact ⟨hl, he⟩
  | adds c list ticket link problem hc p hgo =>
    obtain ⟨e, rfl⟩ | ⟨ticket', deadline, rfl⟩ := hgo
    · contradiction
    · cases hp
      refine ⟨hknown rfl, fun _ _ _ _ hc => ?_⟩
      cases hc
      rw [Client.lane_congr ht, Client.lane_addLane_self (hf.known _ rfl)]
      exact ⟨rfl, rfl⟩
  | looksUp c number list hc hn =>
    cases hp
    exact ⟨hknown rfl, fun _ _ hc => by cases hc; exact hn, nofun⟩
  | finds c number list position ticket hc hpos =>
    cases hp
    refine ⟨hknown rfl, nofun, fun _ _ hc' hclosed => ?_⟩
    cases hc'
    rw [Client.receiver_congr ht] at hclosed
    rw [(hs c.receiver).inOrder hclosed] at hpos
    obtain ⟨hlt, hnumber⟩ := List.getElem?_eq_some_iff.mp hpos
    rw [List.getElem_range] at hnumber
    rw [← hnumber]
    exact Settle.Fits.finding hf number list hc
  | asks c position ticket link m hc hm hl problem =>
    cases hp
    exact ⟨hknown rfl, nofun, nofun⟩
  | marks c hc list =>
    cases hp
    refine ⟨hknown rfl, fun _ => ?_, (hsound c.receiver).listed⟩
    change (t.receiver c.receiver).closed = true
    rw [Client.receiver_congr ht, Client.marked,
      Client.receiver_setReceiver_self (hf.known _ rfl)]
  | unlists c list hc p hgo =>
    have hclosed := Close.Fits.marked hf fun hm => by rw [hc] at hm; contradiction
    exact hgo.fits hp (hknown rfl) (hg.closed _ hclosed) fun q hq =>
      Nat.lt_of_lt_of_le ((hs c.receiver).listed q hq) (hg.lanes _)
  | disposes c position ticket rest tally hc p hgo =>
    have hclosed := Close.Fits.marked hf fun hm => by rw [hc] at hm; contradiction
    have hrest (q : Nat) (hq : q ∈ rest) : q < (t.receiver c.receiver).lanes.length :=
      Nat.lt_of_lt_of_le (Close.Fits.rest hf q (by rw [Close.rest, hc]; exact hq)) (hg.lanes _)
    obtain hgo | ⟨problem, tally', rfl⟩ := hgo
    · exact hgo.fits hp (hknown rfl) (hg.closed _ hclosed) hrest
    · cases hp
      exact ⟨hknown rfl, fun _ => hg.closed _ hclosed, hrest⟩
  | goesOn c position ticket problem rest tally hc p hgo =>
    have hclosed := Close.Fits.marked hf fun hm => by rw [hc] at hm; contradiction
    exact hgo.fits hp (hknown rfl) (hg.closed _ hclosed) fun q hq =>
      Nat.lt_of_lt_of_le (Close.Fits.rest hf q (by rw [Close.rest, hc]; exact hq)) (hg.lanes _)
  | _ => contradiction

end Deed

/-- The rules for another call are kept. -/
theorem Call.Fits.frame {s t : Client} {c : Call} (h : c.Fits s) (hs : t.Sound) (hg : s.Grows t)
    (hl : ∀ r p ticket, .holding (.lane r p) ticket ∈ c.claims → t.lane r p = s.lane r p) :
    c.Fits t := by
  cases c with
  | sending c => trivial
  | opening c => trivial
  | receiving c =>
    obtain ⟨hknown, hpulling⟩ := h
    refine ⟨Nat.lt_of_lt_of_le hknown hg.receivers, fun position ticket link deadline hc => ?_⟩
    rw [hl c.receiver position ticket
      (by simp only [Call.claims, Receive.claims, hc]; exact List.mem_singleton_self _)]
    exact hpulling position ticket link deadline hc
  | settling c =>
    obtain ⟨hknown, hfinding, hentering⟩ := h
    refine ⟨Nat.lt_of_lt_of_le hknown hg.receivers, hfinding, fun position ticket hc ho => ?_⟩
    refine hentering position ticket hc (Bool.eq_false_iff.mpr fun hclosed => ?_)
    rw [hg.closed _ hclosed] at ho
    contradiction
  | closing c =>
    obtain ⟨hknown, hmarked, hrest⟩ := h
    refine ⟨Nat.lt_of_lt_of_le hknown hg.receivers, fun hc => hg.closed _ (hmarked hc), ?_⟩
    intro q hq
    cases hc : c.point with
    | taking list =>
      rw [Close.rest, hc] at hq
      exact (hs c.receiver).listed q hq
    | _ =>
      rw [Close.rest, hc] at hq
      exact Nat.lt_of_lt_of_le (hrest q (by rw [Close.rest, hc]; exact hq)) (hg.lanes _)

/-! ## Traffic -/

theorem Call.step_keeps {now : Nat} {s : Client} {c : Call} {others : List Claim}
    (h : s.Keeps (c.claims ++ others)) (hready : c.isReady now s = true) (hs : s.Sound)
    (hf : c.Fits s) :
    (c.step now s).state.Keeps (claimsOf Call.claims (c.step now s).progress ++ others) := by
  cases c with
  | sending c =>
    rw [Call.step, Step.map, claimsOf_map fun _ => rfl]
    exact Send.step_keeps h
  | opening c =>
    rw [Call.step, Step.map, claimsOf_map fun _ => rfl]
    exact Open.step_keeps h hready
  | receiving c =>
    rw [Call.step, Step.map, claimsOf_map fun _ => rfl]
    exact Receive.step_keeps h hready (Receive.Fits.known hf) (hs c.receiver).listed
  | settling c =>
    rw [Call.step, Step.map, claimsOf_map fun _ => rfl]
    exact Settle.step_keeps h hready (hs c.receiver).listed
  | closing c =>
    rw [Call.step, Step.map, claimsOf_map fun _ => rfl]
    exact Close.step_keeps h hready (Close.Fits.rest hf)

theorem Receive.receivers_drop (s : Client) (c : Receive) : (c.drop s).receivers = s.receivers := by
  rw [Receive.drop]
  cases c.point <;> rfl

theorem Receive.drop_keeps {s : Client} {c : Receive} {others : List Claim}
    (h : s.Keeps (c.claims ++ others)) : (c.drop s).Keeps others := by
  obtain ⟨r, most, timeout, point⟩ := c
  cases point with
  | arriving => exact h
  | opening list ticket | linking list ticket => exact (h.of_perm (.swap _ _ _)).leave.leave
  | surveying ticket => exact h.leave
  | expanding ticket => exact h.leave
  | pulling position ticket link deadline => exact h.leave

/-- The claims of an entry. -/
def Entry.claims (x : Entry) : List Claim := claimsOf Call.claims x.progress

/-- The rules that all calls keep. -/
structure Traffic.Sound (s : Traffic) : Prop where
  keeps : s.client.Keeps (s.calls.flatMap Entry.claims)
  client : s.client.Sound
  fits : ∀ (i : Nat) (q : Demand) (c : Call), s.calls[i]? = some ⟨q, .on c⟩ → c.Fits s.client

namespace Traffic

variable {s t : Traffic}

theorem sound_start (supply : Identifier.Supply) (print : Amqp.Value → String) :
    (start supply print).Sound :=
  ⟨Client.keeps_new _ _, fun _ => .default, fun i _ _ hi => (calls_start i _ hi).elim⟩

/-- What a call on its way has a claim on, apart from all others. -/
theorem Sound.keeps_of_getElem? (h : s.Sound) {i : Nat} {q : Demand} {c : Call}
    (hi : s.calls[i]? = some ⟨q, .on c⟩) :
    s.client.Keeps (c.claims ++ (s.calls.eraseIdx i).flatMap Entry.claims) :=
  h.keeps.of_perm (perm_flatMap_eraseIdx Entry.claims hi)

/-- The claims after one entry was replaced. -/
theorem claims_set {calls : List Entry} {i : Nat} {x : Entry} (hi : calls[i]? = some x)
    (y : Entry) : ((calls.set i y).flatMap Entry.claims).Perm
      (y.claims ++ (calls.eraseIdx i).flatMap Entry.claims) := by
  obtain ⟨hlt, -⟩ := List.getElem?_eq_some_iff.mp hi
  have hp := perm_flatMap_eraseIdx Entry.claims (List.getElem?_set_self (a := y) hlt)
  rwa [List.eraseIdx_set_eq] at hp

theorem Sound.advance (h : s.Sound) {i : Nat} {q : Demand} {c : Call}
    (hi : s.calls[i]? = some ⟨q, .on c⟩) (hr : c.isReady s.now s.client = true)
    (ho : c.overflowing? s.client = none) : (s.advance i q c).Sound := by
  have hkeeps := h.keeps_of_getElem? hi
  have hfits := h.fits i q c hi
  have hd := c.deed s.now hfits.known
  have hsound := hd.sound rfl h.client hfits ho
  refine ⟨?_, hsound, fun j q' k hj => ?_⟩
  · exact (c.step_keeps hkeeps hr h.client hfits).of_perm
      (claims_set hi ⟨q, (c.step s.now s.client).progress⟩).symm
  · obtain ⟨hij, hj⟩ | ⟨-, hk⟩ := entry_of_set hj
    · refine (h.fits j q' k hj).frame hsound (hd.grows rfl) fun r p ticket hclaim => ?_
      have hmem : .holding (.lane r p) ticket ∈ (s.calls.eraseIdx i).flatMap Entry.claims := by
        refine List.mem_flatMap.mpr ⟨⟨q', .on k⟩, ?_, hclaim⟩
        exact List.mem_eraseIdx_iff_getElem?.mpr ⟨j, Ne.symm hij, hj⟩
      exact hd.lane_eq rfl (hkeeps.placed _ (List.mem_append_right _ hmem))
        (c.not_touched hkeeps hr hmem)
    · injection hk with _ hp
      exact hd.fits rfl h.client hfits ho hp.symm

/-- A receiver that is open after a step was open before it. -/
theorem Sound.open_of_advance (h : s.Sound) {i : Nat} {q : Demand} {c : Call}
    (hi : s.calls[i]? = some ⟨q, .on c⟩) {r : Nat}
    (ho : ((s.advance i q c).client.receiver r).closed = false) :
    (s.client.receiver r).closed = false := by
  refine Bool.eq_false_iff.mpr fun hc => ?_
  have hclosed : ((s.advance i q c).client.receiver r).closed = true :=
    ((c.deed s.now (h.fits i q c hi).known).grows rfl).closed r hc
  rw [hclosed] at ho
  contradiction

theorem Sound.cutShort (h : s.Sound) {i : Nat} {q : Demand} {c : Receive} {o : Outcome}
    (hi : s.calls[i]? = some ⟨q, .on (.receiving c)⟩) : (s.cutShort i q c o).Sound := by
  have hreceivers := c.receivers_drop s.client
  refine ⟨?_, Client.sound_congr h.client hreceivers, fun j q' k hj => ?_⟩
  · exact (Receive.drop_keeps (h.keeps_of_getElem? hi)).of_perm (claims_set hi ⟨q, .done o⟩).symm
  · obtain ⟨-, hj⟩ | ⟨-, hk⟩ := entry_of_set hj
    · exact (h.fits j q' k hj).frame (Client.sound_congr h.client hreceivers)
        ((Client.Grows.refl _).congr hreceivers) fun r p _ _ => Client.lane_congr hreceivers r p
    · cases hk

theorem Sound.turn (h : s.Sound) (ht : Turn s t) : t.Sound := by
  cases ht with
  | accepts q hr =>
    refine ⟨?_, h.client, fun j q' k hj => ?_⟩
    · have hnil : q.call.claims = [] := by cases q <;> rfl
      change s.client.Keeps ((s.calls ++ _).flatMap Entry.claims)
      rw [List.flatMap_append, List.flatMap_singleton, Entry.claims, claimsOf, hnil,
        List.append_nil]
      exact h.keeps
    · obtain hj | ⟨-, hk⟩ := entry_of_accept hj
      · exact h.fits j q' k hj
      · cases hk
        exact q.fits_call hr
  | advances i q c hi hr ho => exact h.advance hi hr ho
  | cutsShort i q c o hi => exact h.cutShort hi
  | arranges =>
    refine ⟨h.keeps.of_frame rfl fun _ => Nat.le_refl _, h.client, fun j q k hj => ?_⟩
    exact (h.fits j q k hj).frame h.client ((Client.Grows.refl _).congr rfl) fun _ _ _ _ => rfl
  | waits ms => exact ⟨h.keeps, h.client, h.fits⟩

/-- **The rules hold** in every traffic that can come about. -/
theorem Reachable.sound (h : s.Reachable) : s.Sound :=
  h.invariant sound_start fun _ _ _ ht hs => hs.turn ht

end Traffic

end PeekLock.Remote
