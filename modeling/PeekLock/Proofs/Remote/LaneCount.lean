import Mathlib.Data.List.Count
import PeekLock.Proofs.Remote.Teams

/-!
# PeekLock.Proofs.Remote.LaneCount

A receiver has no more lanes than callers.

A member keeps one lane busy, or is about to open another one, or does
neither (`Member.lane?`, `Member.isExpanding`).  Whoever looks for a lane
does neither, and finds one idle unless the others keep all of them busy.
So the lanes and those who are about to open one never outnumber the
members (`Team.Bounded`).
-/

namespace PeekLock.Remote

open Identifier (counting)

/-! ## What a member is at -/

/-- The lane that a receive has. -/
def Receive.Point.lane? : Receive.Point → Option Nat
  | .pulling position .. => some position
  | _ => none

namespace Member

/-- Where the receive of a member is suspended. -/
def point? (a : Traffic) (x : Member) : Option Receive.Point :=
  match x.call.bind (a.calls[·]?) with
  | some ⟨_, .on (.receiving c)⟩ => some c.point
  | _ => none

/-- Whether a member is about to open another lane. -/
def isExpanding (a : Traffic) (x : Member) : Bool := (x.point? a).any (·.isExpanding)

/-- The lane that a member keeps busy. -/
def lane? (a : Traffic) (x : Member) : Option Nat :=
  match x.owed with
  | token :: _ => laneOf token
  | [] => (x.point? a).bind (·.lane?)

variable {a b : Traffic} {x : Member} {j : Nat} {q : Demand}

theorem point?_of_receiving {c : Receive} (hc : x.call = some j)
    (hj : a.calls[j]? = some ⟨q, .on (.receiving c)⟩) : x.point? a = some c.point := by
  rw [point?, hc, Option.bind_some, hj]

theorem point?_of_idle (hc : x.call = none) : x.point? a = none := by
  rw [point?, hc]
  rfl

theorem point?_congr (h : ∀ j, x.call = some j → b.calls[j]? = a.calls[j]?) :
    x.point? b = x.point? a := by
  cases hc : x.call with
  | none => rw [point?_of_idle hc, point?_of_idle hc]
  | some j => rw [point?, point?, hc, Option.bind_some, Option.bind_some, h j hc]

/-- A member that has a point is in a receive. -/
theorem exists_receiving {point : Receive.Point} (h : x.point? a = some point) :
    ∃ j q c, x.call = some j ∧ a.calls[j]? = some ⟨q, .on (.receiving c)⟩ ∧ c.point = point := by
  rw [point?] at h
  cases hc : x.call with
  | none =>
    rw [hc] at h
    contradiction
  | some j =>
    rw [hc, Option.bind_some] at h
    split at h
    · next q c hj =>
      cases h
      exact ⟨j, q, c, rfl, hj, rfl⟩
    · contradiction

end Member

namespace Team

variable {s t : Team}

/-! ## Busy lanes -/

/-- Whoever receives owes nothing. -/
theorem Sound.owed_of_point (h : s.Sound) (hs : s.traffic.Reachable) {x : Member}
    (hx : x ∈ s.members) {point : Receive.Point} (hp : x.point? s.traffic = some point) :
    x.owed = [] := by
  obtain ⟨j, q, c, hc, hj, -⟩ := Member.exists_receiving hp
  obtain ⟨q', c', hj', hmay⟩ := h.calls x hx j hc
  rw [hj] at hj'
  cases hj'
  obtain ⟨most, timeout, -, hnil⟩ | ⟨token, v, rfl, -⟩ := Member.mayDemand_cases hmay
  · exact hnil
  · cases hs.demanded.calls j _ hj

/-- Whoever owes a message keeps the lane of the message busy. -/
theorem Sound.lane?_of_owed (h : s.Sound) {x : Member} (hx : x ∈ s.members) {token : LockToken}
    (ht : token ∈ x.owed) {p : Nat} (hp : laneOf token = some p) : x.lane? s.traffic = some p := by
  obtain ⟨p', hall⟩ := h.lane x hx
  rw [Member.lane?]
  cases ho : x.owed with
  | nil =>
    rw [ho] at ht
    contradiction
  | cons first rest =>
    have hfirst := hall first (by rw [ho]; exact List.mem_cons_self)
    rw [hall token ht] at hp
    exact hfirst.trans hp

/-- Whoever is about to open a lane keeps none busy. -/
theorem Sound.not_isExpanding (h : s.Sound) (hs : s.traffic.Reachable) {x : Member}
    (hx : x ∈ s.members) (hl : (x.lane? s.traffic).isSome = true) :
    x.isExpanding s.traffic = false := by
  rw [Member.isExpanding]
  cases hp : x.point? s.traffic with
  | none => rfl
  | some point =>
    rw [Member.lane?, h.owed_of_point hs hx hp, hp] at hl
    cases point with
    | pulling => rfl
    | _ => contradiction

/-- **A lane that is not idle** is kept busy by a member. -/
theorem Sound.exists_lane (h : s.Sound) (hs : s.traffic.Reachable) {p : Nat}
    (hp : p < (s.traffic.client.receiver s.receiver).lanes.length)
    (hb : s.traffic.client.isIdle s.receiver p = false) :
    ∃ x ∈ s.members, x.lane? s.traffic = some p := by
  have hopen := h.open_receiver hs
  obtain ⟨j, q, c, hj, hat⟩ | ⟨x, hx, hl⟩ := hs.occupied hopen hp hb
  · have hmatter : c.matter = q.matter := hs.demanded.calls j _ hj
    obtain ⟨x, hx, hc⟩ := h.owned j q c hj (Call.receiver?_eq hmatter ▸ hat.receiver?)
    refine ⟨x, hx, ?_⟩
    obtain ⟨q', c', hj', hmay⟩ := h.calls x hx j hc
    rw [hj] at hj'
    cases hj'
    have hcases := Member.mayDemand_cases hmay
    cases hat with
    | pulling c ticket link deadline hr hpoint =>
      obtain ⟨most, timeout, rfl, hnil⟩ | ⟨token, v, rfl, -⟩ := hcases
      · rw [Member.lane?, hnil, Member.point?_of_receiving hc hj, hpoint]
        rfl
      · cases hmatter
    | entering c ticket hr hpoint =>
      obtain ⟨most, timeout, rfl, -⟩ | ⟨token, v, rfl, ht⟩ := hcases
      · cases hmatter
      · obtain ⟨-, rfl, -⟩ := Matter.settling.inj hmatter
        exact h.lane?_of_owed hx ht
          (Settle.Fits.entering (hs.sound.fits j _ _ hj) p ticket hpoint (by rw [hr]; exact hopen))
    | asking c ticket problem hr hpoint =>
      obtain ⟨most, timeout, rfl, -⟩ | ⟨token, v, rfl, ht⟩ := hcases
      · cases hmatter
      · obtain ⟨-, rfl, -⟩ := Matter.settling.inj hmatter
        exact h.lane?_of_owed hx ht
          (hs.placed j _ c p ticket problem hj hpoint (by rw [hr]; exact hopen))
    | closing c hr =>
      obtain ⟨most, timeout, rfl, -⟩ | ⟨token, v, rfl, -⟩ := hcases <;> cases hmatter
  · obtain ⟨y, hy, ht⟩ := h.stock x hx
    exact ⟨y, hy, h.lane?_of_owed hy ht hl⟩

/-! ## Counting -/

/-- How many members are about to open another lane. -/
def expanding (s : Team) : Nat := s.members.countP (·.isExpanding s.traffic)

/-- The lanes, and the members that are about to open one, do not outnumber the members. -/
def Bounded (s : Team) : Prop :=
  (s.traffic.client.receiver s.receiver).lanes.length + s.expanding ≤ s.members.length

theorem expanding_hear (s : Team) (a : Traffic) :
    (s.hear a).expanding = s.members.countP fun x => (x.hear a).isExpanding a :=
  List.countP_map ..

theorem bounded_hear {a : Traffic} : (s.hear a).Bounded ↔
    (a.client.receiver s.receiver).lanes.length + (s.hear a).expanding ≤ s.members.length := by
  rw [Bounded, hear, List.length_map]

/-- **Whoever finds no lane idle** may open another one. -/
theorem Sound.room (h : s.Sound) (hs : s.traffic.Reachable) {x : Member} (hx : x ∈ s.members)
    {list : Nat} (hp : x.point? s.traffic = some (.surveying list))
    (hb : ∀ p ∈ (s.traffic.client.receiver s.receiver).listed,
      s.traffic.client.isIdle s.receiver p = false) :
    (s.traffic.client.receiver s.receiver).lanes.length + s.expanding < s.members.length := by
  have hlanes : (s.traffic.client.receiver s.receiver).lanes.length ≤
      s.members.countP fun x => (x.lane? s.traffic).isSome := by
    rw [← List.length_filterMap_eq_countP,
      ← List.length_range (n := (s.traffic.client.receiver s.receiver).lanes.length)]
    refine (List.subperm_of_subset List.nodup_range fun p hp => ?_).length_le
    have hlisted := (hs.sound.client s.receiver).inOrder (h.open_receiver hs)
    obtain ⟨y, hy, hl⟩ := h.exists_lane hs (List.mem_range.mp hp) (hb p (hlisted ▸ hp))
    exact List.mem_filterMap.mpr ⟨y, hy, hl⟩
  have hboth : _ + s.expanding = _ := countP_add_countP fun y hy hl => h.not_isExpanding hs hy hl
  have hneither : ((x.lane? s.traffic).isSome || x.isExpanding s.traffic) = false := by
    rw [Member.lane?, h.owed_of_point hs hx hp, Member.isExpanding, hp]
    rfl
  have hlt : s.members.countP (fun y => (y.lane? s.traffic).isSome || y.isExpanding s.traffic) <
      s.members.length := List.countP_lt_length_iff.mpr ⟨x, hx, hneither⟩
  omega

/-- A member whose call takes no step stays where it is. -/
theorem Sound.point?_hear (h : s.Sound) {i : Nat} {q : Demand} {c : Call} {x : Member}
    (hx : x ∈ s.members) (hi : x.call ≠ some i) :
    (x.hear (s.traffic.advance i q c)).point? (s.traffic.advance i q c) = x.point? s.traffic := by
  have hkept (j : Nat) (hj : x.call = some j) :
      (s.traffic.advance i q c).calls[j]? = s.traffic.calls[j]? := by
    refine List.getElem?_set_ne fun hij => hi ?_
    rw [hij, hj]
  have hsame : x.hear (s.traffic.advance i q c) = x := by
    cases hc : x.call with
    | none => exact Member.hear_of_idle hc
    | some j =>
      obtain ⟨q', c', hj, -⟩ := h.calls x hx j hc
      exact Member.hear_of_on hc ((hkept j hc).trans hj)
  rw [hsame, Member.point?_congr hkept]

/-- A member that is about to open a lane after a move is in a receive that can be. -/
theorem exists_expanding {a : Traffic} {x : Member} (h : (x.hear a).isExpanding a = true) :
    ∃ j q c, x.call = some j ∧ a.calls[j]? = some ⟨q, .on (.receiving c)⟩ ∧
      c.point.isExpanding = true := by
  obtain ⟨point, hp, hexp⟩ := (Option.any_eq_true _ _).mp h
  obtain ⟨j, q, c, hc, hj, rfl⟩ := Member.exists_receiving hp
  exact ⟨j, q, c, Member.call_of_hear hc, hj, hexp⟩

/-- A member that is about to open a lane after the step of its call is in a receive that goes on
so. -/
theorem exists_step_of_expanding {i : Nat} {q : Demand} {c : Call} {x : Member}
    (hi : s.traffic.calls[i]? = some ⟨q, .on c⟩) (hc : x.call = some i)
    (h : (x.hear (s.traffic.advance i q c)).isExpanding (s.traffic.advance i q c) = true) :
    ∃ k : Receive, (c.step s.traffic.now s.traffic.client).progress = .on (.receiving k) ∧
      k.point.isExpanding = true := by
  obtain ⟨j, q', k, hj, hentry, hk⟩ := exists_expanding h
  rw [hc] at hj
  cases hj
  have hnow : (s.traffic.advance i q c).calls[i]? =
      some ⟨q, (c.step s.traffic.now s.traffic.client).progress⟩ :=
    List.getElem?_set_self (List.getElem?_eq_some_iff.mp hi).1
  rw [hnow] at hentry
  injection hentry with hentry
  injection hentry with _ hp
  exact ⟨k, hp, hk⟩

/-- A member is about to open a lane after the step of its call only if it was before, or if there
is room for another lane. -/
theorem Sound.isExpanding_or_room (h : s.Sound) (hs : s.traffic.Reachable) {i : Nat} {q : Demand}
    {c : Call} (hi : s.traffic.calls[i]? = some ⟨q, .on c⟩) {x : Member} (hx : x ∈ s.members)
    (hc : x.call = some i)
    (hexp : (x.hear (s.traffic.advance i q c)).isExpanding (s.traffic.advance i q c) = true) :
    x.isExpanding s.traffic = true ∨
      (s.traffic.client.receiver s.receiver).lanes.length + s.expanding < s.members.length := by
  obtain ⟨k, hp, hk⟩ := exists_step_of_expanding hi hc hexp
  have hmatter : c.matter = q.matter := hs.demanded.calls i _ hi
  cases c with
  | receiving c =>
    have hpoint := Member.point?_of_receiving hc hi
    obtain ⟨k, hp, hcall⟩ := Progress.map_eq_on hp
    cases hcall
    obtain hbefore | ⟨list, hlist, hnone⟩ := Receive.isExpanding_step hp hk
    · rw [Member.isExpanding, hpoint]
      exact .inl hbefore
    · have hreceiver : c.receiver = s.receiver := by
        obtain ⟨q', c', hi', hmay⟩ := h.calls x hx i hc
        rw [hi] at hi'
        cases hi'
        have hr := (Call.receiver?_eq hmatter).trans (Member.receiver?_of_mayDemand hmay)
        exact Option.some.inj hr
      exact .inr (h.room hs hx (hlist ▸ hpoint) (hreceiver ▸ hnone))
  | _ =>
    obtain ⟨c', -, hc'⟩ := Progress.map_eq_on hp
    cases hc'

/-- A lane is added by a member that was about to open it, and is not any more. -/
theorem Sound.length_lanes_advance (h : s.Sound) (hs : s.traffic.Reachable) {i : Nat} {q : Demand}
    {c : Call} (hi : s.traffic.calls[i]? = some ⟨q, .on c⟩) {x : Member} (hc : x.call = some i) :
    ((s.traffic.advance i q c).client.receiver s.receiver).lanes.length =
        (s.traffic.client.receiver s.receiver).lanes.length ∨
      x.isExpanding s.traffic = true ∧
        (x.hear (s.traffic.advance i q c)).isExpanding (s.traffic.advance i q c) = false ∧
        ((s.traffic.advance i q c).client.receiver s.receiver).lanes.length =
          (s.traffic.client.receiver s.receiver).lanes.length + 1 := by
  have hdeed := c.deed s.traffic.now (hs.sound.fits i q c hi).known
  obtain hsame | ⟨k, rfl, -, hbefore, hmore, hnot⟩ := hdeed.length_lanes rfl h.known
  · exact .inl hsame
  · refine .inr ⟨?_, Bool.eq_false_iff.mpr fun hexp => ?_, hmore⟩
    · rw [Member.isExpanding, Member.point?_of_receiving hc hi]
      exact hbefore
    · obtain ⟨k', hp, hk⟩ := exists_step_of_expanding hi hc hexp
      rw [hnot k' hp] at hk
      contradiction

/-- The step of a member's call changes the count by that member alone. -/
theorem Sound.expanding_advance (h : s.Sound) {i : Nat} {q : Demand} {c : Call} {x : Member}
    (hx : x ∈ s.members) (hc : x.call = some i) :
    (s.hear (s.traffic.advance i q c)).expanding + (if x.isExpanding s.traffic then 1 else 0) =
      s.expanding + if (x.hear (s.traffic.advance i q c)).isExpanding (s.traffic.advance i q c)
        then 1 else 0 := by
  obtain ⟨k, hk⟩ := List.mem_iff_getElem?.mp hx
  rw [expanding_hear]
  refine countP_add_of_agree hk fun j y hj hjk => ?_
  rw [Member.isExpanding, Member.isExpanding, h.point?_hear (List.mem_of_getElem? hj)]
  exact fun hcall => hjk (h.distinct j k y x i hj hk hcall hc)

/-! ## Every move -/

theorem Bounded.enlist (h : s.Bounded) (hs : s.Sound) {k : Nat} {x : Member} {q : Demand}
    (hx : s.members[k]? = some x) (hc : x.call = none) :
    (s.enlist k x (s.traffic.accept q)).Bounded := by
  have hcount := countP_set_add (·.isExpanding (s.traffic.accept q)) hx
    { x with call := some s.traffic.calls.length }
  have hold : s.members.countP (·.isExpanding (s.traffic.accept q)) = s.expanding := by
    refine List.countP_congr fun y hy => ?_
    rw [Member.isExpanding, Member.isExpanding, Member.point?_congr fun j hj => ?_]
    obtain ⟨q', c, hj, -⟩ := hs.calls y hy j hj
    exact List.getElem?_append_left (List.getElem?_eq_some_iff.mp hj).1
  have hbefore : x.isExpanding (s.traffic.accept q) = false := by
    rw [Member.isExpanding, Member.point?_of_idle hc]
    rfl
  have hafter : Member.isExpanding (s.traffic.accept q)
      { x with call := some s.traffic.calls.length } = false := by
    refine Bool.eq_false_iff.mpr fun hexp => ?_
    obtain ⟨point, hp, hexp⟩ := (Option.any_eq_true _ _).mp hexp
    obtain ⟨j, q', c, hcall, hj, rfl⟩ := Member.exists_receiving hp
    cases hcall
    have hnew : (s.traffic.accept q).calls[s.traffic.calls.length]? = some ⟨q, .on q.call⟩ :=
      List.getElem?_concat_length
    rw [hnew] at hj
    cases q <;> cases hj
    contradiction
  rw [hbefore, hafter, hold] at hcount
  change _ + (s.members.set k _).countP _ ≤ (s.members.set k _).length
  rw [List.length_set]
  exact Nat.le_trans (Nat.le_of_eq (congrArg _ hcount)) h

theorem Bounded.passes (h : s.Bounded) (hs : s.Sound) {m : Remote.Move} {a : Traffic}
    (ha : s.traffic.Around m a) : (s.hear a).Bounded := by
  have hmono : (s.hear a).expanding ≤ s.expanding := by
    rw [expanding_hear]
    refine List.countP_mono_left fun x hx hexp => ?_
    obtain ⟨j, q, c, hc, hj, hpoint⟩ := exists_expanding hexp
    obtain ⟨q', c', hold, -⟩ := hs.calls x hx j hc
    obtain hj | ⟨hnone, -⟩ | ⟨-, -, o, hj, -⟩ := ha.entries j _ hj
    · rw [Member.isExpanding, Member.point?_of_receiving hc hj]
      exact hpoint
    · rw [hold] at hnone
      contradiction
    · cases hj
  rw [bounded_hear, Client.receiver_congr ha.receivers]
  exact Nat.le_trans (Nat.add_le_add_left hmono _) h

theorem Bounded.advances (h : s.Bounded) (hs : s.Sound) (hr : s.traffic.Reachable) {i : Nat}
    {q : Demand} {c : Call} (hi : s.traffic.calls[i]? = some ⟨q, .on c⟩) :
    (s.hear (s.traffic.advance i q c)).Bounded := by
  rw [bounded_hear]
  rw [Bounded] at h
  by_cases hq : ∃ x ∈ s.members, x.call = some i
  · obtain ⟨x, hx, hc⟩ := hq
    have hcount := hs.expanding_advance (q := q) (c := c) hx hc
    have hlanes := hs.length_lanes_advance hr hi hc
    cases hexp : (x.hear (s.traffic.advance i q c)).isExpanding (s.traffic.advance i q c) with
    | false =>
      obtain hsame | ⟨hbefore, -, hmore⟩ := hlanes <;> grind
    | true =>
      have hsame := hlanes.resolve_right fun ⟨_, hafter, _⟩ => by
        rw [hexp] at hafter
        contradiction
      obtain hbefore | hroom := hs.isExpanding_or_room hr hi hx hc hexp <;> grind
  · -- the call is nobody's, so it is not about the receiver
    have hsame : ((s.traffic.advance i q c).client.receiver s.receiver).lanes.length =
        (s.traffic.client.receiver s.receiver).lanes.length := by
      have hdeed := c.deed s.traffic.now (hr.sound.fits i q c hi).known
      refine (hdeed.length_lanes rfl hs.known).resolve_right ?_
      rintro ⟨k, rfl, hk, -⟩
      refine hq (hs.owned i q _ hi ?_)
      rw [← Call.receiver?_eq (hr.demanded.calls i _ hi)]
      exact congrArg some hk
    have hcount : (s.hear (s.traffic.advance i q c)).expanding = s.expanding := by
      rw [expanding_hear]
      refine List.countP_congr fun x hx => ?_
      rw [Member.isExpanding, Member.isExpanding, hs.point?_hear hx fun hc => hq ⟨x, hx, hc⟩]
    rwa [hsame, hcount]

theorem Bounded.turn (h : s.Bounded) (hs : s.Sound) (hr : s.traffic.Reachable)
    (ht : Turn s t) : t.Bounded := by
  cases ht with
  | calls k x q hx hc hq => exact h.enlist hs hx hc
  | advances i q c hi => exact h.advances hs hr hi
  | passes m a hm ha => exact h.passes hs ha

theorem bounded_gather {a : Traffic} {r n : Nat} (ha : a.Reachable)
    (hr : r < a.client.receivers.length) (hu : a.Unused r) (hn : 1 ≤ n) :
    (gather a r n).Bounded := by
  have hidle : (gather a r n).expanding = 0 :=
    List.countP_eq_zero.mpr fun x hx => by
      rw [List.eq_of_mem_replicate hx]
      exact Bool.false_ne_true
  obtain ⟨path, link, he⟩ := ha.fresh_of_unused hr hu
  rw [Bounded, hidle, gather, List.length_replicate, he]
  exact hn

/-- A team keeps its receiver and its members. -/
theorem Turn.kept (ht : Turn s t) :
    t.receiver = s.receiver ∧ t.members.length = s.members.length := by
  cases ht with
  | calls => exact ⟨rfl, List.length_set⟩
  | advances => exact ⟨rfl, List.length_map _⟩
  | passes => exact ⟨rfl, List.length_map _⟩

/-- **A receiver has no more lanes than callers**: whatever the other side answers and in whatever
order the calls take their steps, a receiver that is shared by some callers stays open, lists all
its lanes, and has at most one for each of them. -/
theorem Leads.length_lanes_le {a : Traffic} {r n : Nat} (ha : a.Reachable)
    (hr : r < a.client.receivers.length) (hu : a.Unused r) (hn : 1 ≤ n)
    (hl : (gather a r n).Leads t) :
    (t.traffic.client.receiver r).closed = false ∧
      (t.traffic.client.receiver r).listed =
        List.range (t.traffic.client.receiver r).lanes.length ∧
      (t.traffic.client.receiver r).lanes.length ≤ n := by
  obtain ⟨ht, hsound, hbounded, hreceiver, hmembers⟩ :=
    hl.invariant (P := fun t => t.Sound ∧ t.Bounded ∧ t.receiver = r ∧ t.members.length = n) ha
      ⟨sound_gather ha hr hu n, bounded_gather ha hr hu hn, rfl, List.length_replicate⟩
      fun t u ht hturn ⟨hs, hb, hr, hm⟩ =>
        ⟨hs.turn ht hturn, hb.turn hs ht hturn, hturn.kept.1.trans hr, hturn.kept.2.trans hm⟩
  have hopen := hsound.open_receiver ht
  rw [hreceiver] at hopen
  refine ⟨hopen, (ht.sound.client r).inOrder hopen, ?_⟩
  rw [Bounded, hreceiver, hmembers] at hbounded
  exact Nat.le_trans (Nat.le_add_right _ _) hbounded

/-- A receiver is created for an entity where two messages wait. -/
def creation : List Remote.Move := [
  .begin (.createReceiver "orders"), .advance 0, .advance 0, .advance 0,
  .arrange (Table.empty.put "complete" [some "gone"])
    (Table.empty.put "orders" [default, default])]

/-- Two callers receive a message each, on two lanes.  The settlement of the first message fails,
and its caller receives again.  The other caller has its second receive dropped. -/
def twoCallers : List Move := [
  .call 0 (.receive 0 1 default), .other (.advance 1), .other (.advance 1), .other (.advance 1),
  .call 1 (.receive 0 1 default), .other (.advance 2), .other (.advance 2), .other (.advance 2),
  .call 0 (.settle 0 (lockToken counting 0 0) .complete), .other (.advance 3),
  .other (.advance 2), .other (.advance 2), .other (.advance 2),
  .other (.advance 3), .other (.advance 3), .other (.advance 3),
  .call 0 (.receive 0 1 default), .other (.advance 4), .other (.advance 4),
  .call 1 (.settle 0 (lockToken counting 1 1) .abandon),
  .other (.advance 5), .other (.advance 5), .other (.advance 5), .other (.advance 5),
  .call 1 (.receive 0 1 default), .other (.advance 6), .other (.drop 6)]

theorem length_lanes_le_twoCallers : ∃ a t, ({} : Traffic).run creation = some a ∧
    0 < a.client.receivers.length ∧ a.Unused 0 ∧ 1 ≤ 2 ∧ (gather a 0 2).Leads t ∧
    t.traffic.client.settlements = [.complete 0 none, .abandon 1 none] ∧
    (t.traffic.client.receiver 0).lanes.length = 2 ∧
    (t.traffic.client.receiver 0).closed = false ∧
      (t.traffic.client.receiver 0).listed =
        List.range (t.traffic.client.receiver 0).lanes.length ∧
      (t.traffic.client.receiver 0).lanes.length ≤ 2 := by
  have hrun : (({} : Traffic).run creation).any fun a =>
      decide (0 < a.client.receivers.length ∧ ∀ x ∈ a.calls, x.demand.receiver? ≠ some 0) &&
        ((gather a 0 2).run twoCallers).any fun t =>
          t.traffic.client.settlements = [.complete 0 none, .abandon 1 none] ∧
            (t.traffic.client.receiver 0).lanes.length = 2 := by
    decide +kernel
  obtain ⟨a, ha, hp⟩ := (Option.any_eq_true _ _).mp hrun
  obtain ⟨hunused, hrun⟩ := (Bool.and_eq_true _ _).mp hp
  obtain ⟨t, ht, hp⟩ := (Option.any_eq_true _ _).mp hrun
  obtain ⟨hr, hu⟩ := of_decide_eq_true hunused
  obtain ⟨hsettled, hlanes⟩ := of_decide_eq_true hp
  have hl := leads_of_run ht
  exact ⟨a, t, ha, hr, hu, by decide, hl, hsettled, hlanes,
    Leads.length_lanes_le (Traffic.reachable_of_run ha) hr hu (by decide) hl⟩

end Team

end PeekLock.Remote
