import Mathlib.Data.List.Induction
import Mathlib.Data.List.Nodup
import PeekLock.Proofs.Broker.Outstanding
import PeekLock.Proofs.Consumer.Lifecycle
import PeekLock.Proofs.Consumer.Staff

/-!
# PeekLock.Proofs.Consumer.Receives

How many receives go on at one time.

Every receive on its way has a worker that waits for it, and no worker
waits for two.  So where nobody but a consumer receives, no more receives
are outstanding than it has workers, and neither is the peak ever above
that (`OpensAlone`, `LeadsAlone`): whatever else is asked of the bus,
whatever faults it shows, and whenever workers drop their receives.
-/

namespace PeekLock

open Identifier (counting)

/-! ## Receives and workers -/

/-- The elements that count are in as many places. -/
theorem countP_eq_length_filter_range {α : Type} (p : α → Bool) (l : List α) :
    l.countP p = ((List.range l.length).filter fun i => l[i]?.any p).length := by
  induction l using List.reverseRecOn with
  | nil => rfl
  | append_singleton l x ih =>
    have hold : (List.range l.length).filter (fun i => (l ++ [x])[i]?.any p) =
        (List.range l.length).filter fun i => l[i]?.any p :=
      List.filter_congr fun i hi => by
        rw [List.getElem?_append_left (List.mem_range.mp hi)]
    rw [List.countP_append, List.length_append, List.length_singleton, List.range_succ,
      List.filter_append, List.length_append, hold, ih, List.countP_singleton]
    cases hx : p x <;> simp [hx]

/-- An outstanding receive is one that a worker waits for. -/
theorem Broker.isSome_attendedAt {calls : List Entry} {i : Nat} {x : Entry}
    (hi : calls[i]? = some x) (hx : x.isOutstanding = true) :
    (attendedAt calls i).isSome = true := by
  rw [attendedAt_of_getElem? hi]
  unfold Entry.isOutstanding at hx
  split at hx
  · rfl
  · contradiction

/-- No more receives are outstanding than there are workers. -/
theorem Tended.countP_isOutstanding_le {r : Broker.Receiver} {calls : List Broker.Entry}
    {posts : List Post} (h : Tended r calls posts) :
    calls.countP Broker.Entry.isOutstanding ≤ posts.length := by
  rw [countP_eq_length_filter_range]
  generalize hnumbers : (List.range calls.length).filter _ = numbers
  have hnodup : (numbers.map some).Nodup :=
    (hnumbers ▸ List.nodup_range.filter _).map (Option.some_injective Nat)
  -- Each of them is what some worker waits for.
  have hsubset : numbers.map some ⊆ posts.map (·.errand.call?) := by
    intro y hy
    obtain ⟨i, hi, rfl⟩ := List.mem_map.mp hy
    rw [← hnumbers] at hi
    obtain ⟨x, hx, ho⟩ := (Option.any_eq_true _ _).mp (List.mem_filter.mp hi).2
    obtain ⟨k, p, hk, hp⟩ := h.exists_post (Broker.isSome_attendedAt hx ho)
    exact List.mem_map.mpr ⟨p, List.mem_of_getElem? hk, hp⟩
  have hle := (List.subperm_of_subset hnodup hsubset).length_le
  rwa [List.length_map, List.length_map] at hle

namespace Workshop

variable {settings : ConsumerSettings} {s t : Workshop}

/-! ## A consumer that receives alone -/

/-- A consumer was just built on a bus on which no receive was ever counted, and no receive and no
settlement is on its way. -/
structure OpensAlone (settings : ConsumerSettings) (s : Workshop) : Prop where
  traffic : s.traffic.Reachable
  receiver : s.receiver ∈ s.traffic.receivers
  receiveCalls : s.traffic.broker.receiveCalls = 0
  unattended : ∀ (i began : Nat) (c : Broker.Call),
    s.traffic.calls[i]? = some ⟨began, .on c⟩ → c.isUnattended = true
  life : ∃ receiver, s.life = (Consumer.Life.new settings receiver).pass s.traffic.now
  posts : s.posts = []

/-- One workshop leads to another; from outside comes anything but receives and settlements. -/
inductive LeadsAlone : Workshop → Workshop → Prop where
  | refl (s : Workshop) : LeadsAlone s s
  | step {s t u : Workshop} {m : Move} : LeadsAlone s t → t.after m = some u → LeadsAlone s u
  | ask {s t : Workshop} {q : Broker.Request} : LeadsAlone s t → q.call.isUnattended = true →
    (∀ r, q.receiver? = some r → r ∈ t.traffic.receivers) →
    LeadsAlone s { t with traffic := t.traffic.accept q }

/-- The bus, the consumer, and the workers between the two; and the peak is not above the number
of workers. -/
structure Shared (settings : ConsumerSettings) (s : Workshop) : Prop where
  traffic : s.traffic.Reachable
  receiver : s.receiver ∈ s.traffic.receivers
  life : s.life.Reachable settings
  tended : Tended s.receiver s.traffic.calls s.posts
  staffed : Staffed s.life.consumer.crews s.posts
  peak : s.traffic.broker.peakReceives ≤ settings.normalized.workers

namespace Shared

/-- There are as many workers as were set, or none yet. -/
theorem length_posts_le (hl : s.life.Reachable settings)
    (hs : Staffed s.life.consumer.crews s.posts) :
    s.posts.length ≤ settings.normalized.workers := by
  cases hs with
  | none _ hp =>
    rw [hp]
    exact Nat.zero_le _
  | crew x hc hspawned =>
    obtain hnone | ⟨y, hy, hworkers⟩ := hl.staffed
    · rw [hnone] at hc
      contradiction
    · cases hc.symm.trans hy
      rw [hspawned, hworkers]

theorem outstanding_le (h : s.Shared settings) :
    s.traffic.outstanding ≤ settings.normalized.workers :=
  h.tended.countP_isOutstanding_le.trans (length_posts_le h.life h.staffed)

/-- The bus moves, and the rest goes along. -/
theorem of_move (h : s.Shared settings) {m : Broker.Move}
    (hm : s.traffic.after m = some t.traffic) (hr : t.receiver = s.receiver)
    (hl : t.life.Reachable settings) (ht : Tended t.receiver t.traffic.calls t.posts)
    (hs : Staffed t.life.consumer.crews t.posts) : t.Shared settings where
  traffic := .step h.traffic hm
  receiver := hr ▸ (Broker.Traffic.Leads.step (.refl _) hm).mem_receivers h.receiver
  life := hl
  tended := ht
  staffed := hs
  peak := by
    rw [(h.traffic.gauged.after hm).2]
    exact Nat.max_le.mpr
      ⟨ht.countP_isOutstanding_le.trans (length_posts_le hl hs), h.peak⟩

theorem turn (h : s.Shared settings) (ht : Turn s t) : t.Shared settings := by
  have hlife : t.life.Reachable settings := by
    obtain hl | ⟨m, hm⟩ := ht.life h.staffed
    · rw [hl]
      exact h.life
    · exact h.life.leads (.step (.refl _) hm)
  have hreceiver : t.receiver = s.receiver := by cases ht <;> rfl
  have htended := ht.tended h.tended
  have hstaffed := ht.staffed h.life h.staffed
  obtain ⟨htraffic, -⟩ | ⟨m, hm, -⟩ := ht.traffic h.receiver
  · refine ⟨?_, ?_, hlife, htended, hstaffed, ?_⟩ <;> rw [htraffic]
    · exact h.traffic
    · exact hreceiver ▸ h.receiver
    · exact h.peak
  · exact h.of_move hm hreceiver hlife htended hstaffed

/-- Something is asked of the bus that no worker waits for. -/
theorem ask (h : s.Shared settings) {q : Broker.Request} (hq : q.call.isUnattended = true)
    (hr : ∀ r, q.receiver? = some r → r ∈ s.traffic.receivers) :
    Shared settings { s with traffic := s.traffic.accept q } := by
  have hm : s.traffic.after (.begin q) = some (s.traffic.accept q) := by
    rw [Broker.Traffic.after, if_pos]
    rw [Option.all_eq_true]
    exact fun r he => decide_eq_true (hr r he)
  have ht := h.tended.of_calls (Broker.attendedAt_append_of_none
    (x := ⟨s.traffic.now, .on q.call⟩) (if_pos hq) s.traffic.calls)
  exact h.of_move (t := { s with traffic := s.traffic.accept q }) hm rfl h.life ht h.staffed

end Shared

/-- At the beginning nobody works. -/
theorem OpensAlone.shared (h : s.OpensAlone settings) : s.Shared settings where
  traffic := h.traffic
  receiver := h.receiver
  life := by
    obtain ⟨receiver, hl⟩ := h.life
    exact ⟨receiver, .step (m := .wait s.traffic.now) (.refl _) (congrArg some hl.symm)⟩
  tended := by
    refine ⟨by rw [h.posts]; nofun, fun i => ?_⟩
    have hnone : Broker.attendedAt s.traffic.calls i = none := by
      refine Option.eq_none_iff_forall_ne_some.mpr fun c hc => ?_
      obtain ⟨began, hi⟩ := Broker.getElem?_of_attendedAt hc
      rw [Broker.attendedAt_of_getElem? hi, Broker.Entry.attended?,
        if_pos (h.unattended i began c hi)] at hc
      contradiction
    rw [hnone, h.posts]
    rfl
  staffed := by
    obtain ⟨receiver, hl⟩ := h.life
    rw [h.posts, hl]
    exact .none rfl rfl
  peak := h.traffic.gauged.counted.trans (by rw [h.receiveCalls]; exact Nat.zero_le _)

theorem LeadsAlone.shared {first : Workshop} (hl : first.LeadsAlone s)
    (h : first.Shared settings) : s.Shared settings := by
  induction hl with
  | refl => exact h
  | step _ hm ih => exact ih.turn (turn_of_after ih.tended hm)
  | ask _ hq hr ih => exact ih.ask hq hr

/-- What some moves lead to, a consumer that receives alone leads to. -/
theorem LeadsAlone.of_run {moves : List Move} (h : s.run moves = some t) : s.LeadsAlone t :=
  keeps_of_foldlM h (.refl s) fun _ _ _ hl hm => hl.step hm

/-- **The counters of receives.**  In every run of the bus they tell how many receives are
outstanding, and how many were at most; so they do where the operations on them take turns; and
where a consumer receives alone, both numbers are bounded by that of its workers. -/
theorem receives_counted :
    (∀ (supply : Identifier.Supply) (moves : List Broker.Move) (s : Broker.Traffic),
      Broker.Traffic.run (.start supply) moves = some s → s.Tells supply moves) ∧
    (∀ (moves : List Broker.Turnstile.Move) (s : Broker.Turnstile),
      Broker.Turnstile.run {} moves = some s → s.Tells moves) ∧
    ∀ (settings : ConsumerSettings) (first s : Workshop),
      first.OpensAlone settings → first.LeadsAlone s →
        s.traffic.broker.activeReceives = s.traffic.outstanding ∧
          s.traffic.outstanding ≤ settings.normalized.workers ∧
            s.traffic.broker.peakReceives ≤ settings.normalized.workers := by
  refine ⟨fun _ _ _ => Broker.Traffic.tells, fun _ _ => Broker.Turnstile.tells_of_run,
    fun settings first s hopens hl => ?_⟩
  have hs : s.Shared settings := hl.shared hopens.shared
  exact ⟨hs.traffic.gauged.active, hs.outstanding_le, hs.peak⟩

/-- Of two receives at one time one is dropped, and one is made to fail; then there is a third. -/
def threeReceives : List Broker.Move := [
  .begin (.createReceiver "orders"), .advance 0, .advance 0,
  .begin (.receive ⟨0, "orders"⟩ 1 .zero), .advance 1,
  .begin (.receive ⟨0, "orders"⟩ 1 .zero), .advance 2, .drop 1,
  .begin (.setFaults { timeouts := 1 }), .advance 3, .advance 2,
  .begin (.receive ⟨0, "orders"⟩ 1 .zero), .advance 4]

/-- Two receives have raised the number, and none has noted it yet. -/
def bothRaised : List Broker.Turnstile.Move :=
  [.arrive, .arrive, .advance 0, .advance 1, .advance 0, .advance 1]

def twoWorkers : ConsumerSettings := { ConsumerSettings.ofEntity "orders" with workers := 2 }

/-- A consumer with two workers that was just built for a queue that is new as well. -/
def twoAtTheQueue : Workshop := { atTheQueue with life := .new twoWorkers 0 }

theorem opensAlone_twoAtTheQueue : twoAtTheQueue.OpensAlone twoWorkers where
  traffic := opens_atTheQueue.traffic
  receiver := opens_atTheQueue.receiver
  receiveCalls := rfl
  unattended i began c hi := isUnattended_of_isOutside (opens_atTheQueue.outside i began c hi)
  life := ⟨0, rfl⟩
  posts := rfl

/-- Both begin a receive; then the caller's token is cancelled, and one drops it. -/
def oneInterrupted : List Move := [
  .request (.start "main"), .proceed 0, .proceed 0, .proceed 0,
  .work 0, .work 0, .work 0, .work 1, .work 1, .work 1, .cancel "main", .interrupt 0]

theorem receives_counted_threeReceives :
    (∃ s, Broker.Traffic.run {} threeReceives = some s ∧ s.outstanding = 1 ∧
      s.broker.peakReceives = 2 ∧ s.Tells counting threeReceives) ∧
    (∃ s, Broker.Turnstile.run {} bothRaised = some s ∧ s.gauge = ⟨2, 2, 0⟩ ∧
      s.Tells bothRaised) ∧
    ∃ s, twoAtTheQueue.run oneInterrupted = some s ∧
      s.traffic.outstanding = 1 ∧ s.traffic.broker.peakReceives = 2 ∧
        s.traffic.broker.peakReceives ≤ twoWorkers.normalized.workers := by
  obtain ⟨bus, turnstile, workshop⟩ := receives_counted
  refine ⟨?_, ?_, ?_⟩
  · have hrun : (Broker.Traffic.run {} threeReceives).any fun s =>
        s.outstanding = 1 ∧ s.broker.peakReceives = 2 := by decide
    obtain ⟨s, hs, hp⟩ := (Option.any_eq_true _ _).mp hrun
    obtain ⟨hone, htwo⟩ := of_decide_eq_true hp
    exact ⟨s, hs, hone, htwo, bus _ _ _ hs⟩
  · exact ⟨_, rfl, rfl, turnstile _ _ rfl⟩
  · have hrun : (twoAtTheQueue.run oneInterrupted).any fun s =>
        s.traffic.outstanding = 1 ∧ s.traffic.broker.peakReceives = 2 := by decide
    obtain ⟨s, hs, hp⟩ := (Option.any_eq_true _ _).mp hrun
    obtain ⟨hone, htwo⟩ := of_decide_eq_true hp
    exact ⟨s, hs, hone, htwo, (workshop _ _ _ opensAlone_twoAtTheQueue (.of_run hs)).2.2⟩

end Workshop

end PeekLock
