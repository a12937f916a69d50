import PeekLock.Proofs.Broker.Honours
import PeekLock.Proofs.Consumer.Staff

/-!
# PeekLock.Proofs.Consumer.Dealings

What the workers of a workshop make of what is delivered to them.

Every delivery is with one worker until the handler has returned for it,
and its settlement is called for then (`Dealt`).  As long as no stop has
called the close of the receiver, the receiver is in service: the locks
are those of the deliveries that the handler has not returned for and of
the settlements that have not released theirs.
-/

namespace PeekLock

/-- The messages of a worker that the handler has not returned for. -/
def Post.unhandled (p : Post) : List Message :=
  match p.stage with
  | .handling m rest => m :: rest
  | .settling _ _ rest => rest
  | _ => []

theorem Post.unhandled_turnTo (p : Post) (messages : List Message) (errand : Errand) :
    (p.at (Worker.turnTo messages) errand).unhandled = messages := by
  cases messages <;> rfl

namespace Workshop

/-- The deliveries that the handler has not returned for. -/
def unhandled (s : Workshop) : List Message := s.posts.flatMap Post.unhandled

variable {settings : ConsumerSettings} {s t : Workshop}

section

variable {k : Nat} {p p' : Post}

/-- A worker turns to something else, with the same messages before it. -/
theorem unhandled_set (hk : s.posts[k]? = some p) (h : p'.unhandled = p.unhandled) :
    ((s.posts.set k p').flatMap Post.unhandled).Perm s.unhandled := by
  have hp := perm_flatMap_set Post.unhandled hk p'
  rw [h] at hp
  exact (List.perm_append_right_iff _).mp hp

/-- A worker without messages gets some. -/
theorem unhandled_set_turnTo (hk : s.posts[k]? = some p) (h : p.unhandled = [])
    (messages : List Message) (errand : Errand) :
    ((s.posts.set k (p.at (Worker.turnTo messages) errand)).flatMap Post.unhandled).Perm
      (s.unhandled ++ messages) := by
  have hp := perm_flatMap_set Post.unhandled hk (p.at (Worker.turnTo messages) errand)
  rwa [h, List.append_nil, Post.unhandled_turnTo] at hp

/-- The handler has returned for a message of a worker. -/
theorem unhandled_set_of_cons {m : Message} (hk : s.posts[k]? = some p)
    (h : p.unhandled = m :: p'.unhandled) :
    s.unhandled.Perm (m :: (s.posts.set k p').flatMap Post.unhandled) := by
  have hp := perm_flatMap_set Post.unhandled hk p'
  rw [h, ← List.singleton_append, ← List.append_assoc] at hp
  exact (((List.perm_append_right_iff _).mp hp).symm).trans (List.perm_append_singleton _ _)

end

/-- Workers that were just hired have no messages. -/
theorem unhandled_hired (i : Nat) (life : Consumer.Life) :
    (s.posts ++ life.hired i).flatMap Post.unhandled = s.unhandled := by
  have hnone : (life.hired i).flatMap Post.unhandled = [] := by
    rw [List.flatMap_eq_nil_iff]
    intro p hp
    rw [Post.unhandled, (Consumer.Life.fresh_of_mem_hired hp).1]
  rw [List.flatMap_append, hnone, List.append_nil]
  rfl

/-! ## One worker for each delivery -/

/-- Every delivery is with one worker until the handler has returned for it, and its
settlement is called for then. -/
structure Dealt (s : Workshop) : Prop where
  own : ∀ l ∈ s.deliveries, l.receiver = s.receiver.id ∧ l.entity = s.receiver.entity
  dealt : (s.deliveries.map (·.copy.message)).Perm (s.returns.map (·.1) ++ s.unhandled)
  settled : s.settlements = s.returns.map fun x => (x.1.lockToken, Worker.verdictOn x.2)

/-- What a move does to the messages. -/
inductive Dealing (s t : Workshop) : Prop where
  | nothing (deliveries : t.deliveries = s.deliveries) (returns : t.returns = s.returns)
    (settlements : t.settlements = s.settlements) (unhandled : t.unhandled.Perm s.unhandled)
  | delivery (locks : List Lock) (deliveries : t.deliveries = s.deliveries ++ locks)
    (returns : t.returns = s.returns) (settlements : t.settlements = s.settlements)
    (unhandled : t.unhandled.Perm (s.unhandled ++ locks.map (·.copy.message)))
    (own : ∀ l ∈ locks, l.receiver = s.receiver.id ∧ l.entity = s.receiver.entity)
  | handling (m : Message) (result : Except String Unit) (deliveries : t.deliveries = s.deliveries)
    (returns : t.returns = s.returns ++ [(m, result)])
    (settlements : t.settlements = s.settlements ++ [(m.lockToken, Worker.verdictOn result)])
    (unhandled : s.unhandled.Perm (m :: t.unhandled))

/-- A receive delivers to its receiver. -/
theorem own_of_mem_deliveries {b : Broker} {c : Broker.Receive} {l : Lock}
    (h : l ∈ ((Broker.Call.receiving c).transfer b).deliveries b) :
    l.receiver = c.receiver.id ∧ l.entity = c.receiver.entity := by
  cases ht : (Broker.Call.receiving c).transfer b with
  | take r most =>
    obtain ⟨timeout, deadline, seen, hc⟩ := Broker.Call.looking_of_take ht
    cases hc
    rw [ht] at h
    obtain ⟨hr, he, -⟩ := Broker.mem_lockAll h
    exact ⟨hr, he⟩
  | _ =>
    rw [ht] at h
    contradiction

theorem Turn.dealing (ht : Turn s t) : s.Dealing t := by
  cases ht with
  | proceeds i q k c p hi ht =>
    exact .nothing rfl rfl rfl (.of_eq (unhandled_hired i _))
  | looks k p hk hs =>
    refine .nothing rfl rfl rfl (unhandled_set hk ?_)
    obtain hs | hs := hs <;> rw [Post.unhandled, Post.unhandled, hs] <;> rfl
  | ends k p how hk hs =>
    refine .nothing rfl rfl rfl (unhandled_set hk ?_)
    rw [Post.unhandled, Post.unhandled, hs]
    rfl
  | receives k p most timeout hk hs =>
    refine .nothing rfl rfl rfl (unhandled_set hk ?_)
    rw [Post.unhandled, Post.unhandled, hs]
    rfl
  | finds k p i began c locks hk hs he hi hr hw hl hp =>
    refine .delivery locks rfl rfl rfl ?_ fun l hm => ?_
    · exact unhandled_set_turnTo hk (by rw [Post.unhandled, hs]) _ .none
    · rw [hl] at hm
      exact hr ▸ own_of_mem_deliveries hm
  | misses k p i began c e stage errand hk hs he hi hr hw hp hstage =>
    refine .nothing rfl rfl rfl (unhandled_set hk ?_)
    obtain rfl | rfl := hstage <;> rw [Post.unhandled, Post.unhandled, hs] <;> rfl
  | drops k p i began c stage errand hk hs he hi hstage =>
    refine .nothing rfl rfl rfl (unhandled_set hk ?_)
    obtain rfl | rfl := hstage <;> rw [Post.unhandled, Post.unhandled, hs] <;> rfl
  | handles k p m rest result hk hs =>
    refine .handling m result rfl rfl rfl (unhandled_set_of_cons hk ?_)
    rw [Post.unhandled, hs]
    rfl
  | settles k p i began c m rest result hk hs =>
    refine .nothing rfl rfl rfl (unhandled_set hk ?_)
    rw [Post.unhandled_turnTo, Post.unhandled, hs]
  | _ => exact .nothing rfl rfl rfl (.refl _)

theorem Turn.receiver (ht : Turn s t) : t.receiver = s.receiver := by
  cases ht <;> rfl

namespace Dealt

theorem turn (h : s.Dealt) (ht : Turn s t) : t.Dealt := by
  obtain ⟨hd, hr, hs, hu⟩ | ⟨locks, hd, hr, hs, hu, hown⟩ | ⟨m, result, hd, hr, hs, hu⟩ :=
    ht.dealing
  · refine ⟨?_, ?_, ?_⟩
    · rw [hd, ht.receiver]
      exact h.own
    · rw [hd, hr]
      exact h.dealt.trans (hu.symm.append_left _)
    · rw [hs, hr]
      exact h.settled
  · refine ⟨?_, ?_, ?_⟩
    · rw [hd, ht.receiver]
      exact fun l hl => (List.mem_append.mp hl).elim (h.own l) (hown l)
    · rw [hd, hr, List.map_append]
      refine (h.dealt.append_right _).trans ?_
      rw [List.append_assoc]
      exact hu.symm.append_left _
    · rw [hs, hr]
      exact h.settled
  · refine ⟨?_, ?_, ?_⟩
    · rw [hd, ht.receiver]
      exact h.own
    · rw [hd, hr, List.map_append, List.map_cons, List.map_nil, List.append_assoc]
      exact h.dealt.trans (hu.append_left _)
    · rw [hs, hr, h.settled, List.map_append, List.map_cons, List.map_nil]

end Dealt

theorem Opens.dealt (h : s.Opens settings) : s.Dealt := by
  refine ⟨?_, ?_, ?_⟩
  · rw [h.deliveries]
    exact nofun
  · rw [unhandled, h.deliveries, h.returns, h.posts]
    exact .refl _
  · rw [h.settlements, h.returns]
    rfl

theorem Reachable.dealt (h : s.Reachable settings) : s.Dealt :=
  (h.invariant (fun _ => Opens.dealt) fun _ _ _ ht hd => hd.turn ht).2

/-- Every delivery is with one worker until the handler has returned for it. -/
theorem Dealt.tokens (h : s.Dealt) (ht : s.traffic.Tracked s.deliveries) :
    (s.deliveries.map (·.token)).Perm
      (s.returns.map (·.1.lockToken) ++ s.unhandled.map (·.lockToken)) := by
  have htokens : (s.deliveries.map (·.copy.message)).map (·.lockToken) =
      s.deliveries.map (·.token) := by
    rw [List.map_map]
    exact List.map_congr_left fun l hl => ht.named l hl
  have hp := h.dealt.map (·.lockToken)
  rwa [htokens, List.map_append, List.map_map] at hp

/-! ## Before the close -/

/-- The receiver of a workshop is in service. -/
def InService (s : Workshop) : Prop :=
  s.traffic.Serves s.receiver (s.unhandled.map (·.lockToken)) s.settlements

/-- Where nothing is delivered and no settlement is called for, nothing is handled. -/
theorem Turn.unhandled (ht : Turn s t) (hd : t.deliveries = s.deliveries)
    (hs : t.settlements = s.settlements) : t.unhandled.Perm s.unhandled := by
  obtain ⟨-, -, -, hu⟩ | ⟨locks, hd', -, -, hu⟩ | ⟨m, result, -, -, hs', -⟩ := ht.dealing
  · exact hu
  · have hnone : locks = [] := List.self_eq_append_right.mp (hd.symm.trans hd')
    rwa [hnone, List.map_nil, List.append_nil] at hu
  · have hnone := List.self_eq_append_right.mp (hs.symm.trans hs')
    contradiction

/-- A receiver in service stays so until its close is called. -/
theorem Turn.inService (ht : Turn s t) (hp : s.Parts settings) (hd : s.Dealt) (h : s.InService)
    (hc : t.closing = none) : t.InService := by
  have own (l : Lock) (hl : l ∈ s.traffic.broker.locks) : l.receiver = s.receiver.id :=
    (hd.own l (hp.tracked.locks l hl)).1
  have hm : Broker.Minted s.traffic.broker := hp.tracked.minted
  -- a step of a call that delivers nothing leaves what is due
  have step {i began : Nat} {c : Broker.Call}
      (hi : s.traffic.calls[i]? = some ⟨began, .on c⟩)
      (hs : ∀ k, c = .settling k → k.receiver = s.receiver)
      (hn : (c.transfer s.traffic.broker).deliveries s.traffic.broker = []) :
      (s.traffic.advance i began c).Serves s.receiver (s.unhandled.map (·.lockToken))
        s.settlements := by
    have hnext := h.advance hm hi fun k hk => by
      subst hk
      exact h.honoured hp.traffic hp.tracked own hi (hs k rfl)
    rwa [hn, List.map_nil, List.append_nil] at hnext
  have hunhandled := ht.unhandled
  cases ht with
  | asks q hq =>
    refine Broker.Traffic.Serves.accept h ?_ fun k hk => ?_
    · cases q <;> first | rfl | exact hq
    · cases q <;> contradiction
  | carries i began c hi hu hr =>
    exact step hi (fun k hk => by subst hk; contradiction) (Broker.Call.deliveries_eq_nil hu _)
  | rearranges locks hp => exact Broker.Traffic.Serves.rearrange h hp
  | waits ms => exact ⟨h.isOpen, h.faults, h.spares, h.locks, h.records⟩
  | cancels | requests | answers => exact h
  | closes => contradiction
  | proceeds | looks | ends =>
    exact Broker.Traffic.Serves.of_perm h ((hunhandled rfl rfl).map _)
  | receives k p most timeout hk hs =>
    refine (Broker.Traffic.Serves.accept h rfl fun k hk => ?_).of_perm
      ((hunhandled rfl rfl).map _)
    contradiction
  | polls k p i began c c' hk hs he hi hr hw hp =>
    exact step hi (fun k hk => by cases hk)
      (Broker.Receive.deliveries_eq_nil fun _ hd => by rw [hp] at hd; cases hd)
  | finds k p i began c locks hk hs he hi hr hw hl hp =>
    have hnext := h.advance hm hi fun k hk => by cases hk
    refine hnext.of_perm ?_
    have hset := unhandled_set_turnTo hk (by rw [Post.unhandled, hs])
      (locks.map (·.copy.message)) .none
    have htokens : (locks.map (·.copy.message)).map (·.lockToken) = locks.map (·.token) := by
      rw [List.map_map]
      refine List.map_congr_left fun l hm => ?_
      rw [hl] at hm
      exact Broker.Transfer.lockToken_of_mem_deliveries hm
    rw [← hl, ← htokens, ← List.map_append]
    exact hset.map _
  | misses k p i began c e stage errand hk hs he hi hr hw hp hstage hn =>
    exact (step hi (fun k hk => by cases hk)
      (Broker.Receive.deliveries_eq_nil fun _ hd => by rw [hp] at hd; cases hd)).of_perm
        ((hunhandled rfl rfl).map _)
  | drops k p i began c stage errand hk hs he hi hstage hn =>
    exact (Broker.Traffic.Serves.dropReceive h hi).of_perm ((hunhandled rfl rfl).map _)
  | handles k p m rest result hk hs =>
    refine Broker.Traffic.Serves.settle h ?_
    refine (unhandled_set_of_cons hk ?_).map _
    rw [Post.unhandled, hs]
    rfl
  | presses k p i began c c' m rest hk hs he hi hr ht hp =>
    exact step hi (fun k hk => by cases hk; exact hr) (Broker.Settle.deliveries_eq_nil _ c)
  | settles k p i began c m rest result hk hs he hi hr ht hp =>
    exact (step hi (fun k hk => by cases hk; exact hr)
      (Broker.Settle.deliveries_eq_nil _ c)).of_perm ((hunhandled rfl rfl).map _)

/-- At the beginning no call owes anything. -/
theorem Opens.owes_nothing (h : s.Opens settings) {x : Broker.Entry} (hx : x ∈ s.traffic.calls) :
    x.unreleased = [] ∧ x.unrecorded = [] := by
  obtain ⟨began, p⟩ := x
  cases p with
  | done o => exact ⟨rfl, rfl⟩
  | on c =>
    obtain ⟨i, hi⟩ := List.mem_iff_getElem?.mp hx
    have hout := h.outside i began c hi
    cases c <;> first | exact ⟨rfl, rfl⟩ | contradiction

theorem Opens.inService (h : s.Opens settings) : s.InService where
  isOpen := h.isOpen
  faults := h.faults
  spares i began c hi := Broker.Call.sparesSettlements_of_isOutside (h.outside i began c hi)
  locks := by
    rw [List.flatMap_eq_nil_iff.mpr fun x hx => (h.owes_nothing hx).1, h.locks, unhandled, h.posts]
    exact .refl _
  records := by
    rw [List.flatMap_eq_nil_iff.mpr fun x hx => (h.owes_nothing hx).2, Broker.records,
      h.completed, h.abandoned, h.settlements]
    exact .refl _

/-- A close that was called was called for good. -/
theorem Turn.closing_of (ht : Turn s t) (hc : t.closing = none) : s.closing = none := by
  cases ht <;> first | exact hc | contradiction

/-- Until its close is called, the receiver is in service. -/
theorem Reachable.inService (h : s.Reachable settings) (hc : s.closing = none) : s.InService := by
  refine (h.invariant (P := fun s => s.Dealt ∧ (s.closing = none → s.InService)) ?_ ?_).2.2 hc
  · exact fun s ho => ⟨ho.dealt, fun _ => ho.inService⟩
  · exact fun s t hp ht ⟨hd, hs⟩ =>
      ⟨hd.turn ht, fun hc => ht.inService hp hd (hs (ht.closing_of hc)) hc⟩

end Workshop

end PeekLock
