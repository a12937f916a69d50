import PeekLock.Progress
import PeekLock.Proofs.Counting
import PeekLock.Proofs.Service.Handling
import PeekLock.Service.Bench

/-!
# PeekLock.Proofs.Service.Tallies

The counters of the service mirror the settlements.

A message that the handler is given is counted, then returned, and then a
settlement is called for, and other workers come in between.  So there are
two accounts to be squared for each verdict (`Squared`): the counter is
ahead of what the handler has returned by the messages that are counted and
not returned, and that is ahead of the settlements by the messages that are
returned and not settled.  A move changes both sides of an account alike,
whatever the other workers are about; where no worker is in its handler, or
has just come back from it, nothing is in between and the counters tell the
settlements.
-/

namespace PeekLock.Service

/-! ## What the handler counts -/

/-- The counter of the messages that come to such a settlement. -/
def Stats.counter (s : Stats) : Verdict → UInt64
  | .complete => s.processed
  | .abandon => s.failed

theorem Stats.counter_recordSent (s : Stats) (n : UInt64) (v : Verdict) :
    (s.recordSent n).counter v = s.counter v := by
  cases v <;> rfl

/-- Every call of the handler counts its message, under what it returns and nothing else. -/
theorem counter_logMessage (c : MessageContext) (s : Stats) (v : Verdict) :
    (logMessage c s).2.2.counter v =
      s.counter v + UInt64.ofNat (if Worker.verdictOn (logMessage c s).1 = v then 1 else 0) := by
  by_cases h : Acceptable c.message
  · obtain ⟨logs, hl⟩ := logMessage_of_acceptable h s
    rw [hl]
    cases v
    · rfl
    · exact (UInt64.add_zero s.failed).symm
  · obtain ⟨e, hl⟩ := logMessage_of_not_acceptable h s
    rw [hl]
    cases v
    · exact (UInt64.add_zero s.processed).symm
    · rfl

/-! ## What a worker is about -/

/-- The handler has counted a message, and is about to return so. -/
def Handling.isCounted (v : Verdict) : Handling → Bool
  | .counted result => Worker.verdictOn result = v
  | _ => false

/-- The handler has returned, and the worker is about to call for the settlement. -/
def Handling.isReturned (v : Verdict) : Handling → Bool
  | .returned result => Worker.verdictOn result = v
  | _ => false

namespace Hand

/-- A worker has called its handler, and the call has come so far. -/
def isAt (p : Handling → Bool) (x : Hand) : Bool := x.context?.isSome && p x.handling

variable {x : Hand} {c : MessageContext} {p : Handling → Bool} {result : Except String Unit}

theorem isAt_eq (h : x.context? = some c) : x.isAt p = p x.handling := by
  rw [isAt, h]
  rfl

theorem isAt_eq_false (h : x.context? = none) : x.isAt p = false := by
  rw [isAt, h]
  rfl

/-- What a worker has met with is no call of its handler that has come any far. -/
theorem isAt_meet (e : Worker.Event) (hp : p .called = false) : (x.meet e).isAt p = false := by
  rw [isAt, meet, hp]
  exact Bool.and_false _

/-- A worker with something to handle is at that message. -/
theorem exists_stage_of_context? (h : x.context? = some c) :
    ∃ m rest, x.stage = .handling m rest ∧ c = x.worker.contextOf m := by
  unfold context? at h
  cases hs : x.stage <;> rw [hs] at h <;> cases h
  exact ⟨_, _, rfl, rfl⟩

/-- Whatever else a worker meets with, it does not call for a settlement then. -/
theorem settlement?_meet_eq_none (h : x.context? = none) {e : Worker.Event}
    (ha : x.stage.awaits e = true) : (x.meet e).settlement? = none := by
  have hturns (messages : List Message) :
      ({ x with stage := Worker.turnTo messages, handling := .called } : Hand).settlement? =
        none := by
    cases messages <;> rfl
  obtain ⟨w, stage, handling⟩ := x
  cases stage <;> cases e <;> try cases ha
  case starting.started => rfl
  case deciding.looked caller scope => cases caller <;> cases scope <;> rfl
  case receiving.received r =>
    cases r with
    | ok messages => exact hturns messages
    | error e =>
      have hreact : (w.react .receiving (.received (.error e))).1 = .deciding ∨
          (w.react .receiving (.received (.error e))).1 = .backingOff := by
        cases he : e.isEmptyPoll <;> simp [Worker.react, he]
      rw [settlement?, meet]
      obtain hr | hr := hreact <;> rw [hr] <;> rfl
  case handling.handled => cases h
  case handling.panicked => cases h
  case settling.settled m verdict rest r => exact hturns rest
  case backingOff.rested => rfl

/-- A worker that its handler has returned to calls for the settlement that this asks for. -/
theorem settlement?_meet_handled (h : x.context? = some c) :
    (x.meet (.handled result)).settlement? =
      some (c.message.lockToken, Worker.verdictOn result) := by
  obtain ⟨m, rest, hs, rfl⟩ := exists_stage_of_context? h
  rw [settlement?, meet, hs]
  rfl

end Hand

namespace Bench

variable {b b' : Bench} {m : Move} {moves : List Move}

/-! ## What a move can be -/

/-- A move: when it can happen, and what it leads to. -/
inductive Turn (b : Bench) : Bench → Prop where
  /-- A worker is started. -/
  | hires (w : Worker) : Turn b { b with hands := b.hands ++ [{ worker := w }] }
  /-- A worker that is not in its handler meets with what it waits for. -/
  | meets (k : Nat) (x : Hand) (e : Worker.Event) (hk : b.hands[k]? = some x)
    (hx : x.context? = none) (ha : x.stage.awaits e = true) : Turn b (b.put k (x.meet e))
  /-- A worker that is not in its handler is lost. -/
  | loses (k : Nat) (x : Hand) (how : Exit) (hk : b.hands[k]? = some x) (hx : x.context? = none) :
    Turn b { b with hands := b.hands.set k { x with stage := .ended how } }
  /-- The handler counts a message. -/
  | counts (k : Nat) (x : Hand) (c : MessageContext) (hk : b.hands[k]? = some x)
    (hc : x.context? = some c) (hh : x.handling = .called) : Turn b (b.count k x c)
  /-- The handler returns. -/
  | returns (k : Nat) (x : Hand) (c : MessageContext) (result : Except String Unit)
    (hk : b.hands[k]? = some x) (hc : x.context? = some c) (hh : x.handling = .counted result) :
    Turn b { b with
      hands := b.hands.set k { x with handling := .returned result }
      returns := b.returns ++ [result] }
  /-- A worker calls for the settlement of what was handled. -/
  | settles (k : Nat) (x : Hand) (c : MessageContext) (result : Except String Unit)
    (hk : b.hands[k]? = some x) (hc : x.context? = some c) (hh : x.handling = .returned result) :
    Turn b (b.put k (x.meet (.handled result)))
  /-- Messages are sent. -/
  | sends (n : UInt64) : Turn b { b with stats := b.stats.recordSent n }

theorem turn_of_after (h : b.after m = some b') : Turn b b' := by
  cases m with
  | hire w =>
    cases h
    exact .hires w
  | meet k e =>
    obtain ⟨x, hk, h⟩ := Option.bind_eq_some_iff.mp h
    obtain ⟨hif, h⟩ := Option.ite_none_right_eq_some.mp h
    obtain ⟨ha, hx⟩ := Bool.and_eq_true_iff.mp hif
    cases h
    exact .meets k x e hk (Option.isNone_iff_eq_none.mp hx) ha
  | lose k how =>
    obtain ⟨x, hk, h⟩ := Option.bind_eq_some_iff.mp h
    obtain ⟨hx, h⟩ := Option.ite_none_right_eq_some.mp h
    cases h
    exact .loses k x how hk (Option.isNone_iff_eq_none.mp hx)
  | count k =>
    obtain ⟨x, hk, h⟩ := Option.bind_eq_some_iff.mp h
    split at h
    next c hc hh =>
      cases h
      exact .counts k x c hk hc hh
    next => cases h
  | «return» k =>
    obtain ⟨x, hk, h⟩ := Option.bind_eq_some_iff.mp h
    split at h
    next c result hc hh =>
      cases h
      exact .returns k x c result hk hc hh
    next => cases h
  | settle k =>
    obtain ⟨x, hk, h⟩ := Option.bind_eq_some_iff.mp h
    split at h
    next c result hc hh =>
      cases h
      exact .settles k x c result hk hc hh
    next => cases h
  | send n =>
    cases h
    exact .sends n

/-! ## The accounts -/

/-- How many messages the handler has returned so for. -/
def returned (b : Bench) (v : Verdict) : Nat := b.returns.countP (Worker.verdictOn · = v)

/-- How many settlements of a kind were called for. -/
def settled (b : Bench) (v : Verdict) : Nat := b.settlements.countP (·.2 = v)

/-- The accounts of a verdict are squared. -/
structure Squared (b : Bench) (v : Verdict) : Prop where
  counter : b.stats.counter v =
    UInt64.ofNat (b.returned v + b.hands.countP (·.isAt (Handling.isCounted v)))
  returned : b.returned v = b.settled v + b.hands.countP (·.isAt (Handling.isReturned v))

/-- The handler returns once more. -/
theorem returned_append (b : Bench) (result : Except String Unit) (v : Verdict) :
    (b.returns ++ [result]).countP (Worker.verdictOn · = v) =
      b.returned v + if Worker.verdictOn result = v then 1 else 0 := by
  rw [List.countP_append, List.countP_singleton, returned]
  simp only [decide_eq_true_eq]

/-- One more settlement is called for. -/
theorem settled_put_handled {x : Hand} {c : MessageContext} {result : Except String Unit}
    (hc : x.context? = some c) (k : Nat) (v : Verdict) :
    (b.put k (x.meet (.handled result))).settled v =
      b.settled v + if Worker.verdictOn result = v then 1 else 0 := by
  rw [settled, put, Hand.settlement?_meet_handled hc, Option.toList_some, List.countP_append,
    List.countP_singleton, settled]
  simp only [decide_eq_true_eq]

namespace Squared

variable {v : Verdict} {k : Nat} {x : Hand} {c : MessageContext} {result : Except String Unit}

/-- A worker gives way to another one, and the accounts move by what the two are about. -/
theorem exchange (h : b.Squared v) (hk : b.hands[k]? = some x) {y : Hand}
    (hy : b'.hands = b.hands.set k y) {counted returned settled : Nat}
    (hc : b'.stats.counter v = b.stats.counter v + UInt64.ofNat counted)
    (hr : b'.returned v = b.returned v + returned) (hs : b'.settled v = b.settled v + settled)
    (hcounted : returned + (if y.isAt (Handling.isCounted v) then 1 else 0) =
      counted + if x.isAt (Handling.isCounted v) then 1 else 0)
    (hreturned : settled + (if y.isAt (Handling.isReturned v) then 1 else 0) =
      returned + if x.isAt (Handling.isReturned v) then 1 else 0) : b'.Squared v := by
  have hsetCounted := countP_set_add (·.isAt (Handling.isCounted v)) hk y
  have hsetReturned := countP_set_add (·.isAt (Handling.isReturned v)) hk y
  rw [← hy] at hsetCounted hsetReturned
  constructor
  · rw [hc, h.counter, hr, ← UInt64.ofNat_add]
    refine congrArg UInt64.ofNat ?_
    omega
  · rw [hr, hs, h.returned]
    omega

/-- A worker that is not in its handler gives way to one that is not about to return from it. -/
theorem replaced (h : b.Squared v) (hk : b.hands[k]? = some x) (hx : x.context? = none)
    {y : Hand} (hy : ∀ p : Handling → Bool, p .called = false → y.isAt p = false) :
    Squared { b with hands := b.hands.set k y } v := by
  refine h.exchange hk rfl (UInt64.add_zero _).symm (Nat.add_zero _).symm
    (Nat.add_zero _).symm ?_ ?_
  · rw [Hand.isAt_eq_false hx, hy _ rfl]
  · rw [Hand.isAt_eq_false hx, hy _ rfl]

/-- The handler counts a message. -/
theorem count (h : b.Squared v) (hk : b.hands[k]? = some x) (hc : x.context? = some c)
    (hh : x.handling = .called) : (b.count k x c).Squared v := by
  let y : Hand := { x with handling := .counted (logMessage c b.stats).1 }
  have hy (p : Handling → Bool) : y.isAt p = p (.counted (logMessage c b.stats).1) :=
    Hand.isAt_eq hc
  refine h.exchange hk (y := y) rfl (counter_logMessage c b.stats v) (Nat.add_zero _).symm
    (Nat.add_zero _).symm ?_ ?_
  · rw [Hand.isAt_eq hc, hh, hy]
    simp [Handling.isCounted]
  · rw [Hand.isAt_eq hc, hh, hy]
    rfl

/-- The handler returns to a worker. -/
theorem «return» (h : b.Squared v) (hk : b.hands[k]? = some x) (hc : x.context? = some c)
    (hh : x.handling = .counted result) : Squared { b with
      hands := b.hands.set k { x with handling := .returned result }
      returns := b.returns ++ [result] } v := by
  let y : Hand := { x with handling := .returned result }
  have hy (p : Handling → Bool) : y.isAt p = p (.returned result) := Hand.isAt_eq hc
  refine h.exchange hk (y := y) rfl (UInt64.add_zero _).symm (returned_append b result v)
    (Nat.add_zero _).symm ?_ ?_
  · rw [Hand.isAt_eq hc, hh, hy]
    simp [Handling.isCounted]
  · rw [Hand.isAt_eq hc, hh, hy]
    simp [Handling.isReturned]

/-- A worker calls for the settlement of what was handled. -/
theorem settle (h : b.Squared v) (hk : b.hands[k]? = some x) (hc : x.context? = some c)
    (hh : x.handling = .returned result) : (b.put k (x.meet (.handled result))).Squared v := by
  refine h.exchange hk rfl (UInt64.add_zero _).symm (Nat.add_zero _).symm
    (settled_put_handled hc k v) ?_ ?_
  · rw [Hand.isAt_eq hc, hh, Hand.isAt_meet _ rfl]
    rfl
  · rw [Hand.isAt_eq hc, hh, Hand.isAt_meet _ rfl]
    simp [Handling.isReturned]

/-- A move squares the accounts again. -/
theorem turn (h : b.Squared v) (ht : Turn b b') : b'.Squared v := by
  cases ht with
  | hires w =>
    constructor
    · rw [List.countP_append]
      exact h.counter
    · rw [List.countP_append]
      exact h.returned
  | meets k x e hk hx ha =>
    have hput : b.put k (x.meet e) = { b with hands := b.hands.set k (x.meet e) } := by
      rw [put, Hand.settlement?_meet_eq_none hx ha, Option.toList_none, List.append_nil]
    rw [hput]
    exact h.replaced hk hx fun p hp => Hand.isAt_meet e hp
  | loses k x how hk hx => exact h.replaced hk hx fun _ _ => rfl
  | counts k x c hk hc hh => exact h.count hk hc hh
  | returns k x c result hk hc hh => exact h.return hk hc hh
  | settles k x c result hk hc hh => exact h.settle hk hc hh
  | sends n =>
    exact ⟨(Stats.counter_recordSent _ _ _).trans h.counter, h.returned⟩

end Squared

theorem squared_of_run (h : run {} moves = some b) (v : Verdict) : b.Squared v :=
  keeps_of_foldlM (P := fun b => b.Squared v) h ⟨by cases v <;> rfl, rfl⟩ fun _ _ _ hb hm =>
    hb.turn (turn_of_after hm)

/-! ## Quiet -/

/-- Where no worker is about a message, all that was counted is settled. -/
theorem Squared.settled_of_isQuiet {v : Verdict} (h : b.Squared v) (hq : b.IsQuiet) :
    b.stats.counter v = UInt64.ofNat (b.settled v) ∧ b.returned v = b.settled v := by
  have hnone (p : Handling → Bool) : b.hands.countP (·.isAt p) = 0 :=
    List.countP_eq_zero.mpr fun x hx => by
      rw [Hand.isAt_eq_false (hq x hx)]
      exact Bool.false_ne_true
  have hsettled : b.returned v = b.settled v := by rw [h.returned, hnone, Nat.add_zero]
  exact ⟨by rw [h.counter, hnone, hsettled, Nat.add_zero], hsettled⟩

/-- What the handler has returned asks for one settlement or the other. -/
theorem length_returns (b : Bench) :
    b.returns.length = b.returned .complete + b.returned .abandon := by
  rw [List.length_eq_countP_add_countP (Worker.verdictOn · = .complete)]
  refine congrArg (b.returned .complete + ·) (List.countP_congr fun r _ => ?_)
  cases r <;> simp [Worker.verdictOn]

/-- The counters mirror the settlements. -/
structure Mirrors (b : Bench) : Prop where
  /-- They count in 64 bits. -/
  processed : b.stats.processed = UInt64.ofNat b.completes
  failed : b.stats.failed = UInt64.ofNat b.abandons
  /-- There is a settlement for every return of the handler. -/
  settled : b.completes + b.abandons = b.returns.length
  both : b.stats.processed + b.stats.failed = UInt64.ofNat b.returns.length
  /-- Before they wrap around, they are the numbers themselves. -/
  exactly : b.returns.length < 2 ^ 64 →
    b.stats.processed.toNat = b.completes ∧ b.stats.failed.toNat = b.abandons ∧
      b.stats.processed.toNat + b.stats.failed.toNat = b.returns.length

theorem mirrors_of_isQuiet (h : ∀ v, b.Squared v) (hq : b.IsQuiet) : b.Mirrors := by
  obtain ⟨hprocessed, hc⟩ := (h .complete).settled_of_isQuiet hq
  obtain ⟨hfailed, ha⟩ := (h .abandon).settled_of_isQuiet hq
  have hp : b.stats.processed = UInt64.ofNat b.completes := hprocessed
  have hf : b.stats.failed = UInt64.ofNat b.abandons := hfailed
  have hs : b.completes + b.abandons = b.returns.length := by
    rw [length_returns, hc, ha]
    rfl
  refine ⟨hp, hf, hs, by rw [hp, hf, ← UInt64.ofNat_add, hs], fun hlt => ?_⟩
  have hcompletes : (UInt64.ofNat b.completes).toNat = b.completes :=
    UInt64.toNat_ofNat_of_lt' (by rw [UInt64.size]; omega)
  have habandons : (UInt64.ofNat b.abandons).toNat = b.abandons :=
    UInt64.toNat_ofNat_of_lt' (by rw [UInt64.size]; omega)
  rw [hp, hf, hcompletes, habandons]
  exact ⟨rfl, rfl, hs⟩

/-- What the counters of a bench tell. -/
structure Tells (b : Bench) : Prop where
  mirrors : b.IsQuiet → b.Mirrors
  /-- The handler rejects what claims to be JSON and is none, and nothing else. -/
  rejects (c : MessageContext) (stats : Stats) :
    (∃ e, (logMessage c stats).1 = .error e) ↔
      c.message.contentType = some "application/json" ∧
        ∃ f, Json.read c.message.body = .error f

/-- **The counters mirror the settlements**, whatever the workers receive, and in whatever order
they go on. -/
theorem counters_mirror (h : run {} moves = some b) : b.Tells where
  mirrors := mirrors_of_isQuiet (squared_of_run h)
  rejects := logMessage_error_iff

/-- A message with an opening brace for a body, which is no JSON. -/
def brace (token : String) (contentType : Option String) : Message :=
  { (default : Message) with body := [0x7b], lockToken := ⟨token⟩, contentType := contentType }

/-- Two workers at a time; one of them has a text, and the other what claims to be JSON. -/
def twoAtATime : List Move :=
  let settings := ConsumerSettings.ofEntity "orders"
  [.hire ⟨0, settings⟩, .hire ⟨1, settings⟩, .meet 0 .started, .meet 1 .started,
    .meet 0 (.looked false false), .meet 1 (.looked false false),
    .meet 0 (.received (.ok [brace "a" none])),
    .meet 1 (.received (.ok [brace "b" (some "application/json")])),
    .count 0, .count 1, .return 1, .return 0, .settle 0, .settle 1]

theorem counters_mirror_twoAtATime : ∃ b, run {} twoAtATime = some b ∧ b.IsQuiet ∧
    b.settlements = [(⟨"a"⟩, .complete), (⟨"b"⟩, .abandon)] ∧ b.stats = ⟨0, 1, 1⟩ ∧
      b.Tells := by
  have hrun : (run {} twoAtATime).any (fun b => b.IsQuiet ∧
      b.settlements = [(⟨"a"⟩, .complete), (⟨"b"⟩, .abandon)] ∧ b.stats = ⟨0, 1, 1⟩) = true := by
    decide +kernel
  obtain ⟨b, hb, hends⟩ := (Option.any_eq_true _ _).mp hrun
  obtain ⟨hquiet, hsettlements, hstats⟩ := of_decide_eq_true hends
  exact ⟨b, hb, hquiet, hsettlements, hstats, counters_mirror hb⟩

end Bench

end PeekLock.Service
