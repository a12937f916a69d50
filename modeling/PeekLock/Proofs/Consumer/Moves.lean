import PeekLock.Proofs.Consumer.Posts

/-!
# PeekLock.Proofs.Consumer.Moves

What a move of a workshop can be.

`Turn` lists once what each move does to the posts, the calls and the
books, and under which conditions; no later proof opens the moves again.
-/

namespace PeekLock.Workshop

/-- A move: when it can happen, and what it leads to. -/
inductive Turn (s : Workshop) : Workshop → Prop where
  /-- Something is asked of the bus from outside. -/
  | asks (q : Broker.Request) (hq : q.isOutside = true) :
    Turn s { s with traffic := s.traffic.accept q }
  /-- A call goes on without a worker. -/
  | carries (i began : Nat) (c : Broker.Call) (hi : s.traffic.calls[i]? = some ⟨began, .on c⟩)
    (hc : c.isUnattended = true) (hr : c.isReady s.traffic.now s.traffic.broker = true) :
    Turn s { s with traffic := s.traffic.advance i began c }
  | rearranges (locks : List Lock) (hp : locks.Perm s.traffic.broker.locks) :
    Turn s { s with traffic := s.traffic.rearrange locks }
  | waits (ms : Nat) : Turn s { s with traffic := s.traffic.pass ms, life := s.life.pass ms }
  | cancels (token : String) : Turn s { s with cancelled := token :: s.cancelled }
  | requests (q : Consumer.Request) : Turn s { s with life := s.life.accept q }
  /-- A start or stop goes on, and may have hired workers. -/
  | proceeds (i : Nat) (q : Consumer.Request) (k : Consumer.Call) (c : Consumer)
    (p : Progress Consumer.Call Consumer.Outcome) (hi : s.life.calls[i]? = some ⟨q, .on k⟩)
    (ht : Consumer.Turn s.life.now s.life.consumer k c p)
    (hm : s.life.after (.advance i) = some (s.life.resume i q c p)) :
    Turn s { s with
      life := s.life.resume i q c p
      posts := s.posts ++ (s.life.resume i q c p).hired i }
  /-- A stop calls the close of the receiver. -/
  | closes (i : Nat) (q : Consumer.Request)
    (hi : s.life.calls[i]? = some ⟨q, .on (.stopping .closing)⟩) (hn : s.closing = none) :
    Turn s { s with
      traffic := s.traffic.accept (.close s.receiver)
      closing := some s.traffic.calls.length }
  /-- The close returns to a stop. -/
  | answers (i : Nat) (q : Consumer.Request) (closed : Except BusError Unit)
    (hi : s.life.calls[i]? = some ⟨q, .on (.stopping .closing)⟩) :
    Turn s { s with
      life := s.life.resume i q s.life.consumer (.on (.stopping (.storing closed))) }
  /-- A worker turns to its tokens, after its first turn or after a pause. -/
  | looks (k : Nat) (p : Post) (hk : s.posts[k]? = some p)
    (hs : p.stage = .starting ∨ p.stage = .backingOff) :
    Turn s { s with posts := s.posts.set k (p.at .deciding .none) }
  /-- A worker finds a token cancelled. -/
  | ends (k : Nat) (p : Post) (how : Exit) (hk : s.posts[k]? = some p) (hs : p.stage = .deciding) :
    Turn s { s with
      life := s.life.finish p.crew p.worker.number how
      posts := s.posts.set k (p.at (.ended how) .none) }
  /-- A worker begins a receive. -/
  | receives (k : Nat) (p : Post) (most : Nat) (timeout : Duration) (hk : s.posts[k]? = some p)
    (hs : p.stage = .deciding) :
    Turn s { s with
      traffic := s.traffic.accept (.receive s.receiver most timeout)
      posts := s.posts.set k (p.at .receiving (.receiving s.traffic.calls.length)) }
  /-- The receive of a worker goes on. -/
  | polls (k : Nat) (p : Post) (i began : Nat) (c c' : Broker.Receive)
    (hk : s.posts[k]? = some p) (hs : p.stage = .receiving) (he : p.errand = .receiving i)
    (hi : s.traffic.calls[i]? = some ⟨began, .on (.receiving c)⟩) (hr : c.receiver = s.receiver)
    (hw : c.isReady s.traffic.now s.traffic.broker = true)
    (hp : (c.step s.traffic.now s.traffic.broker).progress = .on c') :
    Turn s { s with traffic := s.traffic.advance i began (.receiving c) }
  /-- The receive of a worker ends with what it delivers. -/
  | finds (k : Nat) (p : Post) (i began : Nat) (c : Broker.Receive) (locks : List Lock)
    (hk : s.posts[k]? = some p) (hs : p.stage = .receiving) (he : p.errand = .receiving i)
    (hi : s.traffic.calls[i]? = some ⟨began, .on (.receiving c)⟩) (hr : c.receiver = s.receiver)
    (hw : c.isReady s.traffic.now s.traffic.broker = true)
    (hl : locks = ((Broker.Call.receiving c).transfer s.traffic.broker).deliveries
      s.traffic.broker)
    (hp : (c.step s.traffic.now s.traffic.broker).progress =
      .done (.ok (locks.map (·.copy.message)))) :
    Turn s { s with
      traffic := s.traffic.advance i began (.receiving c)
      deliveries := s.deliveries ++ locks
      posts := s.posts.set k (p.at (Worker.turnTo (locks.map (·.copy.message))) .none) }
  /-- The receive of a worker ends with an error. -/
  | misses (k : Nat) (p : Post) (i began : Nat) (c : Broker.Receive) (e : BusError)
    (stage : Worker.Stage) (errand : Errand)
    (hk : s.posts[k]? = some p) (hs : p.stage = .receiving) (he : p.errand = .receiving i)
    (hi : s.traffic.calls[i]? = some ⟨began, .on (.receiving c)⟩) (hr : c.receiver = s.receiver)
    (hw : c.isReady s.traffic.now s.traffic.broker = true)
    (hp : (c.step s.traffic.now s.traffic.broker).progress = .done (.error e))
    (hstage : stage = .deciding ∨ stage = .backingOff) (hn : errand.call? = none) :
    Turn s { s with
      traffic := s.traffic.advance i began (.receiving c)
      posts := s.posts.set k (p.at stage errand) }
  /-- A worker drops its receive. -/
  | drops (k : Nat) (p : Post) (i began : Nat) (c : Broker.Receive)
    (stage : Worker.Stage) (errand : Errand)
    (hk : s.posts[k]? = some p) (hs : p.stage = .receiving) (he : p.errand = .receiving i)
    (hi : s.traffic.calls[i]? = some ⟨began, .on (.receiving c)⟩)
    (hstage : stage = .deciding ∨ stage = .backingOff) (hn : errand.call? = none) :
    Turn s { s with
      traffic := s.traffic.dropReceive i began c
      posts := s.posts.set k (p.at stage errand) }
  /-- The handler returns, and the worker begins to settle. -/
  | handles (k : Nat) (p : Post) (m : Message) (rest : List Message) (result : Except String Unit)
    (hk : s.posts[k]? = some p) (hs : p.stage = .handling m rest) :
    Turn s { s with
      traffic := s.traffic.accept (.settle s.receiver m.lockToken (Worker.verdictOn result))
      returns := s.returns ++ [(m, result)]
      settlements := s.settlements ++ [(m.lockToken, Worker.verdictOn result)]
      posts := s.posts.set k
        (p.at (.settling m (Worker.verdictOn result) rest) (.settling s.traffic.calls.length)) }
  /-- The settlement of a worker goes on. -/
  | presses (k : Nat) (p : Post) (i began : Nat) (c c' : Broker.Settle) (m : Message)
    (rest : List Message) (hk : s.posts[k]? = some p) (hs : p.stage = .settling m c.verdict rest)
    (he : p.errand = .settling i)
    (hi : s.traffic.calls[i]? = some ⟨began, .on (.settling c)⟩) (hr : c.receiver = s.receiver)
    (ht : c.token = m.lockToken) (hp : (c.step s.traffic.broker).progress = .on c') :
    Turn s { s with traffic := s.traffic.advance i began (.settling c) }
  /-- The settlement of a worker ends. -/
  | settles (k : Nat) (p : Post) (i began : Nat) (c : Broker.Settle) (m : Message)
    (rest : List Message) (result : Except BusError Unit)
    (hk : s.posts[k]? = some p) (hs : p.stage = .settling m c.verdict rest)
    (he : p.errand = .settling i)
    (hi : s.traffic.calls[i]? = some ⟨began, .on (.settling c)⟩) (hr : c.receiver = s.receiver)
    (ht : c.token = m.lockToken) (hp : (c.step s.traffic.broker).progress = .done result) :
    Turn s { s with
      traffic := s.traffic.advance i began (.settling c)
      posts := s.posts.set k (p.at (Worker.turnTo rest) .none) }

/-! ## The moves of a worker -/

section

variable {s t : Workshop} {k : Nat} {p : Post}

/-- Where a worker goes after a receive that failed. -/
theorem enter_of_missed (s : Workshop) (k : Nat) (p : Post) (e : BusError)
    (hs : p.stage = .receiving) : ∃ stage errand,
      (stage = .deciding ∨ stage = .backingOff) ∧ errand.call? = none ∧
      s.tell k p (.received (.error e)) =
        { s with posts := s.posts.set k (p.at stage errand) } := by
  simp only [tell, hs, Worker.react]
  split
  · exact ⟨.deciding, .none, .inl rfl, rfl, rfl⟩
  · exact ⟨.backingOff, _, .inr rfl, rfl, rfl⟩

/-- Where a worker goes with the rest of its messages. -/
theorem enter_turnTo (s : Workshop) (k : Nat) (p : Post) (rest : List Message) :
    s.enter k p (Worker.turnTo rest) =
      { s with posts := s.posts.set k (p.at (Worker.turnTo rest) .none) } := by
  cases rest <;> rfl

/-- A receive of a worker takes its next step. -/
theorem turn_of_receiving {i began : Nat} {c : Broker.Receive} (hk : s.posts[k]? = some p)
    (hs : p.stage = .receiving) (he : p.errand = .receiving i)
    (hi : s.traffic.calls[i]? = some ⟨began, .on (.receiving c)⟩) (hr : c.receiver = s.receiver)
    (h : s.attend k p i = some t) : Turn s t := by
  obtain ⟨u, hu, rfl⟩ := Option.map_eq_some_iff.mp h
  obtain ⟨hw, rfl⟩ := Broker.Traffic.eq_advance hi hu
  have hentry := Broker.Traffic.getElem?_advance hi
  have hstep : (Broker.Call.step s.traffic.now s.traffic.broker (.receiving c)).progress =
      (c.step s.traffic.now s.traffic.broker).progress.map .receiving .received := rfl
  rw [hstep] at hentry
  rw [Broker.Traffic.deliveries_advance hi, hentry, Option.bind_some]
  cases hp : (c.step s.traffic.now s.traffic.broker).progress with
  | on c' =>
    rw [Broker.Receive.deliveries_eq_nil (fun _ hd => by rw [hp] at hd; cases hd), List.append_nil]
    exact .polls k p i began c c' hk hs he hi hr hw hp
  | done result =>
    cases result with
    | ok messages =>
      have hm := Broker.Traffic.messages_of_step hp
      subst hm
      have hturn := Turn.finds k p i began c _ hk hs he hi hr hw rfl hp
      simp only [Progress.map, Broker.Entry.event?, tell, hs, Worker.react]
      rw [enter_turnTo]
      exact hturn
    | error e =>
      rw [Broker.Receive.deliveries_eq_nil (fun _ hd => by rw [hp] at hd; cases hd),
        List.append_nil]
      simp only [Progress.map, Broker.Entry.event?]
      obtain ⟨stage, errand, hstage, hn, heq⟩ := enter_of_missed
        { s with traffic := s.traffic.advance i began (.receiving c) } k p e hs
      rw [heq]
      exact .misses k p i began c e stage errand hk hs he hi hr hw hp hstage hn

/-- A settlement of a worker takes its next step. -/
theorem turn_of_settling {i began : Nat} {c : Broker.Settle} {m : Message} {rest : List Message}
    (hk : s.posts[k]? = some p) (hs : p.stage = .settling m c.verdict rest)
    (he : p.errand = .settling i)
    (hi : s.traffic.calls[i]? = some ⟨began, .on (.settling c)⟩) (hr : c.receiver = s.receiver)
    (ht : c.token = m.lockToken) (h : s.attend k p i = some t) : Turn s t := by
  obtain ⟨u, hu, rfl⟩ := Option.map_eq_some_iff.mp h
  obtain ⟨-, rfl⟩ := Broker.Traffic.eq_advance hi hu
  have hentry := Broker.Traffic.getElem?_advance hi
  have hstep : (Broker.Call.step s.traffic.now s.traffic.broker (.settling c)).progress =
      (c.step s.traffic.broker).progress.map .settling .settled := rfl
  rw [hstep] at hentry
  rw [Broker.Traffic.deliveries_advance hi, hentry, Option.bind_some,
    Broker.Settle.deliveries_eq_nil, List.append_nil]
  cases hp : (c.step s.traffic.broker).progress with
  | on c' => exact .presses k p i began c c' m rest hk hs he hi hr ht hp
  | done result =>
    have hturn := Turn.settles k p i began c m rest result hk hs he hi hr ht hp
    simp only [Progress.map, Broker.Entry.event?, tell, hs, Worker.react]
    rw [enter_turnTo]
    exact hturn

/-- A worker goes on. -/
theorem turn_of_work (h : Tended s.receiver s.traffic.calls s.posts)
    (hk : s.posts[k]? = some p) (hw : s.work k p = some t) : Turn s t := by
  obtain ⟨crew, worker, stage, errand⟩ := p
  have hf := h.fits k _ hk
  cases hf with
  | receiving i c hi hr =>
    obtain ⟨began, hi⟩ := Broker.getElem?_of_attendedAt hi
    exact turn_of_receiving hk rfl rfl hi hr hw
  | settling i c m v rest hi hr ht hv =>
    obtain ⟨began, hi⟩ := Broker.getElem?_of_attendedAt hi
    subst hv
    exact turn_of_settling hk rfl rfl hi hr ht hw
  | resting hs he =>
    cases stage with
    | starting =>
      cases hw
      exact .looks k _ hk (.inl rfl)
    | deciding =>
      cases hw
      simp only [tell]
      generalize s.callerCancelled ⟨crew, worker, .deciding, errand⟩ = caller
      generalize s.scopeCancelled ⟨crew, worker, .deciding, errand⟩ = scope
      cases caller with
      | true => exact .ends k _ .returned hk rfl
      | false =>
        cases scope with
        | true => exact .ends k _ .returned hk rfl
        | false => exact .receives k _ _ _ hk rfl
    | backingOff =>
      cases errand with
      | pausing due =>
        simp only [work] at hw
        split at hw
        · cases hw
          exact .looks k _ hk (.inr rfl)
        · contradiction
      | _ => contradiction
    | _ => contradiction

/-- A worker drops its receive. -/
theorem turn_of_interrupt (h : Tended s.receiver s.traffic.calls s.posts)
    (hk : s.posts[k]? = some p) (hw : s.interrupt k p = some t) : Turn s t := by
  obtain ⟨crew, worker, stage, errand⟩ := p
  cases h.fits k _ hk with
  | receiving i c hi hr =>
    obtain ⟨began, hi⟩ := Broker.getElem?_of_attendedAt hi
    simp only [interrupt] at hw
    split at hw
    · obtain ⟨u, hu, rfl⟩ := Option.map_eq_some_iff.mp hw
      simp only [Broker.Traffic.after, hi] at hu
      cases hu
      obtain ⟨stage, errand, hstage, hn, heq⟩ := enter_of_missed
        { s with traffic := s.traffic.dropReceive i began c } k
        ⟨crew, worker, .receiving, .receiving i⟩ Worker.interrupted rfl
      rw [heq]
      exact .drops k _ i began c stage errand hk rfl rfl hi hstage hn
    · contradiction
  | settling => contradiction
  | resting hs =>
    cases stage with
    | receiving => contradiction
    | _ => contradiction

/-- The handler returns to a worker. -/
theorem turn_of_handle {result : Except String Unit} (hk : s.posts[k]? = some p)
    (hw : s.handle k p result = some t) : Turn s t := by
  obtain ⟨crew, worker, stage, errand⟩ := p
  cases stage with
  | handling m rest =>
    cases hw
    exact .handles k _ m rest result hk rfl
  | _ => contradiction

end

theorem call_of_isUnattended {s : Workshop} {i : Nat} (h : s.isUnattended i = true) :
    ∃ began c, s.traffic.calls[i]? = some ⟨began, .on c⟩ ∧ c.isUnattended = true := by
  unfold isUnattended at h
  split at h
  · next began c hi => exact ⟨began, c, hi, h⟩
  · contradiction

/-- A move of a workshop is one of those. -/
theorem turn_of_after {s t : Workshop} {m : Move} (h : Tended s.receiver s.traffic.calls s.posts)
    (hm : s.after m = some t) : Turn s t := by
  cases m with
  | ask q =>
    simp only [after] at hm
    split at hm
    · next hq =>
      cases hm
      exact .asks q hq
    · contradiction
  | carry i =>
    simp only [after] at hm
    split at hm
    · next hu =>
      obtain ⟨began, c, hi, hc⟩ := call_of_isUnattended hu
      obtain ⟨u, hu, rfl⟩ := Option.map_eq_some_iff.mp hm
      obtain ⟨hr, rfl⟩ := Broker.Traffic.eq_advance hi hu
      exact .carries i began c hi hc hr
    · contradiction
  | rearrange locks =>
    obtain ⟨u, hu, rfl⟩ := Option.map_eq_some_iff.mp hm
    simp only [Broker.Traffic.after] at hu
    split at hu
    · next hp =>
      cases hu
      exact .rearranges locks (List.isPerm_iff.mp hp)
    · contradiction
  | wait ms =>
    cases hm
    exact .waits ms
  | cancel token =>
    cases hm
    exact .cancels token
  | request q =>
    cases hm
    exact .requests q
  | proceed i =>
    obtain ⟨u, hu, rfl⟩ := Option.map_eq_some_iff.mp hm
    obtain ⟨q, hq, -⟩ | ⟨j, q, k, c, p, hi, ht, rfl, hmove⟩ | ⟨crew, worker, how, hf, -⟩ |
      ⟨ms, hw, -⟩ := Consumer.Life.after_cases hu
    · contradiction
    · obtain ⟨heq, -⟩ | ⟨closed, heq, -⟩ := hmove
      · cases heq
        exact .proceeds i q k c p hi ht hu
      · contradiction
    · contradiction
    · contradiction
  | close i =>
    simp only [after, close] at hm
    split at hm
    · next q hi hn =>
      cases hm
      exact .closes i q hi hn
    · contradiction
  | answer i =>
    simp only [after, answer] at hm
    split at hm
    · next closed hc =>
      obtain ⟨u, hu, rfl⟩ := Option.map_eq_some_iff.mp hm
      simp only [Consumer.Life.after] at hu
      split at hu
      · next q hi =>
        cases hu
        exact .answers i q closed hi
      · contradiction
    · contradiction
  | work k =>
    obtain ⟨p, hk, hw⟩ := Option.bind_eq_some_iff.mp hm
    exact turn_of_work h hk hw
  | interrupt k =>
    obtain ⟨p, hk, hw⟩ := Option.bind_eq_some_iff.mp hm
    exact turn_of_interrupt h hk hw
  | handle k result =>
    obtain ⟨p, hk, hw⟩ := Option.bind_eq_some_iff.mp hm
    exact turn_of_handle hk hw

end PeekLock.Workshop
