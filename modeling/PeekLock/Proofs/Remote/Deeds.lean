import PeekLock.Proofs.Remote.Lanes
import PeekLock.Remote.Traffic

/-!
# PeekLock.Proofs.Remote.Deeds

What one step of a call of the remote bus does to the receivers.

`Deed` lists everything that a step can do, with where the call was
before and where it is afterwards; the gates and the other side are left
out.  Later proofs go through it and do not open the calls again.
-/

namespace PeekLock.Remote

/-- The receiver that a call is about. -/
def Call.receiver? : Call → Option Nat
  | .receiving c => some c.receiver
  | .settling c => some c.receiver
  | .closing c => some c.receiver
  | _ => none

/-- Whether a receive waits for the messages of a lane. -/
def Receive.Point.isPulling : Receive.Point → Bool
  | .pulling .. => true
  | _ => false

/-- Why a settlement finds that there is no such message. -/
inductive Settle.Loses (s : Client) (c : Settle) : Prop where
  | unnamed (hc : c.point = .arriving) (hn : laneOf c.token = none)
  | unlisted (number list : Nat) (hc : c.point = .finding number list)
    (hn : (s.receiver c.receiver).listed[number]? = none)
  | unknown (position ticket : Nat) (hc : c.point = .entering position ticket)
    (hn : (s.lane c.receiver position).message? c.token = none)

/-- How a close goes on when these lanes are left: it ends, or it turns to the lanes
one after the other. -/
def Close.GoesOn (c : Close) (lanes : List Nat) (p : Progress Call Outcome) : Prop :=
  (∃ result, p = .done (.closed result)) ∨
    (∃ position ticket rest tally, lanes = position :: rest ∧
      p = .on (.closing { c with point := .entering position ticket rest tally }))

/-- A receiver that was just created. -/
def LaneSet.fresh (path : EntityPath) (link : Nat) : LaneSet :=
  { entity := path, lanes := [{ number := 0, link := some link }], listed := [0] }

namespace Client

/-- A lane without a message. -/
def without (s : Client) (r position : Nat) (token : LockToken) : Client :=
  let lane := s.lane r position
  s.setLane r position { lane with inFlight := lane.inFlight.filter (·.1 ≠ token) }

/-- A lane with more messages. -/
def withMore (s : Client) (r position : Nat) (tokened : List (LockToken × Incoming)) : Client :=
  let lane := s.lane r position
  s.setLane r position { lane with inFlight := lane.inFlight ++ tokened }

/-- A lane that is done with. -/
def emptied (s : Client) (r position : Nat) : Client :=
  s.setLane r position { s.lane r position with inFlight := [], link := none }

/-- A receiver that is marked as closed. -/
def marked (s : Client) (r : Nat) : Client :=
  s.setReceiver r { s.receiver r with closed := true }

/-- A receiver whose lanes are taken off the list. -/
def unlisted (s : Client) (r : Nat) : Client :=
  s.setReceiver r { s.receiver r with listed := [] }

end Client

/-- What one step does to the receivers, and where the call is then. -/
inductive Deed (s : Client) : Call → List LaneSet → Progress Call Outcome → Prop where
  | sends (c : Send) (p : Progress Send Send.Result) :
    Deed s (.sending c) s.receivers (p.map .sending .sent)
  | opens (c : Open) (p : Progress Open (Except BusError Nat)) :
    Deed s (.opening c) s.receivers (p.map .opening .opened)
  | creates (c : Open) (path : EntityPath) (link : Nat) :
    Deed s (.opening c)
      (s.receivers ++ [LaneSet.fresh path link])
      (.done (.opened (.ok s.receivers.length)))
  -- Receiving
  | turnsBack (c : Receive) (hc : c.point.isPulling = false) (e : BusError) :
    Deed s (.receiving c) s.receivers (.done (.received (.error e)))
  | queues (c : Receive) (hc : c.point.isPulling = false) (point : Receive.Point)
    (hp : point.isPulling = false) :
    Deed s (.receiving c) s.receivers (.on (.receiving { c with point := point }))
  | pulls (c : Receive) (hc : c.point.isPulling = false) (position ticket link deadline : Nat)
    (hl : (s.lane c.receiver position).link = some link)
    (he : (s.lane c.receiver position).inFlight = []) :
    Deed s (.receiving c) s.receivers
      (.on (.receiving { c with point := .pulling position ticket link deadline }))
  | adds (c : Receive) (list ticket link : Nat) (problem : Option String)
    (hc : c.point = .linking list ticket problem) (p : Progress Call Outcome)
    (hp : (∃ e, p = .done (.received (.error e))) ∨
      ∃ ticket' deadline, p = .on (.receiving
        { c with point := .pulling (s.receiver c.receiver).lanes.length ticket' link deadline })) :
    Deed s (.receiving c) (s.addLane c.receiver link).2.receivers p
  | handsOut (c : Receive) (position ticket link deadline : Nat)
    (hc : c.point = .pulling position ticket link deadline)
    (tokened : List (LockToken × Incoming))
    (ht : tokened = Client.tokenAll s.supply (s.lane c.receiver position).number s.issued
      (s.network.take link c.most).1) :
    Deed s (.receiving c) (s.withMore c.receiver position tokened).receivers
      (.done (.received (.ok (tokened.map fun x => x.2.message x.1))))
  -- Settling
  | loses (c : Settle) (hc : c.Loses s) :
    Deed s (.settling c) s.receivers (.done (.settled (.error (.lockLost c.token.text))))
  | refuses (c : Settle) (hc : c.point = .arriving)
    (ho : (s.receiver c.receiver).closed = true) :
    Deed s (.settling c) s.receivers (.done (.settled (.error .receiverClosed)))
  | looksUp (c : Settle) (number list : Nat) (hc : c.point = .arriving)
    (hn : laneOf c.token = some number) :
    Deed s (.settling c) s.receivers (.on (.settling { c with point := .finding number list }))
  | finds (c : Settle) (number list position ticket : Nat) (hc : c.point = .finding number list)
    (hp : (s.receiver c.receiver).listed[number]? = some position) :
    Deed s (.settling c) s.receivers
      (.on (.settling { c with point := .entering position ticket }))
  | asks (c : Settle) (position ticket link : Nat) (m : Incoming)
    (hc : c.point = .entering position ticket)
    (hm : (s.lane c.receiver position).message? c.token = some m)
    (hl : (s.lane c.receiver position).link = some link) (problem : Option String)
    (hp : problem = (s.ask (Settle.request link m c.verdict)).1) :
    Deed s (.settling c) (s.without c.receiver position c.token).receivers
      (.on (.settling { c with point := .asking position ticket problem }))
  | misses (c : Settle) (position ticket : Nat) (m : Incoming)
    (hc : c.point = .entering position ticket)
    (hm : (s.lane c.receiver position).message? c.token = some m)
    (hl : (s.lane c.receiver position).link = none) :
    Deed s (.settling c) (s.without c.receiver position c.token).receivers
      (.done (.settled (.error .receiverClosed)))
  | settles (c : Settle) (position ticket : Nat) (problem : Option String)
    (hc : c.point = .asking position ticket problem) :
    Deed s (.settling c) s.receivers (.done (.settled (Settle.answer c.verdict problem)))
  -- Closing
  | returns (c : Close) (hc : c.point = .marking) :
    Deed s (.closing c) s.receivers (.done (.closed (.ok ())))
  | marks (c : Close) (hc : c.point = .marking) (list : Nat) :
    Deed s (.closing c) (s.marked c.receiver).receivers
      (.on (.closing { c with point := .taking list }))
  | unlists (c : Close) (list : Nat) (hc : c.point = .taking list) (p : Progress Call Outcome)
    (hp : c.GoesOn (s.receiver c.receiver).listed p) :
    Deed s (.closing c) (s.unlisted c.receiver).receivers p
  | disposes (c : Close) (position ticket : Nat) (rest : List Nat) (tally : Close.Tally)
    (hc : c.point = .entering position ticket rest tally) (p : Progress Call Outcome)
    (hp : c.GoesOn rest p ∨ ∃ problem tally',
      p = .on (.closing { c with point := .disposing position ticket problem rest tally' })) :
    Deed s (.closing c) (s.emptied c.receiver position).receivers p
  | goesOn (c : Close) (position ticket : Nat) (problem : Option String) (rest : List Nat)
    (tally : Close.Tally) (hc : c.point = .disposing position ticket problem rest tally)
    (p : Progress Call Outcome) (hp : c.GoesOn rest p) :
    Deed s (.closing c) s.receivers p

/-! ## Every step is one of them -/

theorem receivers_linked {s t : Client} {entity : EntityPath} {problem : Option String}
    {result : Except BusError Nat} (ho : linked s entity problem = (result, t)) :
    t.receivers = s.receivers := by
  cases problem <;> cases ho <;> rfl

theorem receivers_ask {s t : Client} {request : Request} {problem : Option String}
    (ha : s.ask request = (problem, t)) : t.receivers = s.receivers :=
  congrArg (·.2.receivers) ha.symm

theorem Send.receivers_step (s : Client) (c : Send) : (c.step s).state.receivers = s.receivers := by
  cases c with
  | buildingOne target body options =>
    simp only [Send.step]
    split <;> rfl
  | buildingBatch target bodies options =>
    simp only [Send.step]
    split <;> rfl
  | creating target messages receipt ticket =>
    simp only [Send.step]
    split
    · next ha => exact (receivers_ask ha :)
    · next ha => exact (receivers_ask ha :)
  | sending target messages receipt =>
    simp only [Send.step]
    split
    · next ha => exact (receivers_ask ha :)
    · next ha => exact (receivers_ask ha :)
  | disposing target result => rfl

theorem Open.deed (now : Nat) (s : Client) (c : Open) :
    Deed s (.opening c) (Call.step now s (.opening c)).state.receivers
      (Call.step now s (.opening c)).progress := by
  cases c with
  | checking entity =>
    simp only [Call.step, Step.map, Open.step]
    split
    · exact .opens _ (.done _)
    · exact .opens _ (.on _)
  | opening path ticket => exact .opens _ (.on _)
  | linking path ticket problem =>
    simp only [Call.step, Step.map, Open.step]
    split
    · next ho => exact receivers_linked ho ▸ .opens _ (.done _)
    · next link t ho =>
      have hcreates := Deed.creates (s := s) (.linking path ticket problem) path link
      rw [← receivers_linked ho] at hcreates
      exact hcreates

/-! ### Receiving -/

/-- A receive that has a lane, with a link, waits there or ends. -/
theorem Receive.pull_cases {now : Nat} {s : Client} {c : Receive} {logs : List LogRecord}
    {position ticket link : Nat} {x : Step Client Receive Result}
    (hx : c.pull now s logs position ticket = x)
    (hl : (s.lane c.receiver position).link = some link) :
    x.state.receivers = s.receivers ∧ ((∃ e, x.progress = .done (.error e)) ∨
      ∃ deadline, x.progress = .on { c with point := .pulling position ticket link deadline }) := by
  rw [Receive.pull] at hx
  split at hx
  · next hn =>
    rw [hl] at hn
    contradiction
  · next link' hl' =>
    rw [hl] at hl'
    cases hl'
    split at hx <;> subst hx
    · next ha => exact ⟨(receivers_ask ha :), .inl ⟨_, rfl⟩⟩
    · next ha => exact ⟨(receivers_ask ha :), .inr ⟨_, rfl⟩⟩

theorem Receive.deed {now : Nat} {s : Client} {c : Receive} (hr : c.receiver < s.receivers.length) :
    Deed s (.receiving c) (Call.step now s (.receiving c)).state.receivers
      (Call.step now s (.receiving c)).progress := by
  simp only [Call.step, Step.map]
  cases hc : c.point with
  | arriving =>
    simp only [Receive.step, hc]
    split
    · exact .turnsBack c (hc ▸ rfl) _
    · exact .queues c (hc ▸ rfl) _ rfl
  | surveying list =>
    simp only [Receive.step, hc]
    split
    · next position hf =>
      have hidle := List.find?_some hf
      rw [Client.isIdle, Bool.and_eq_true, Bool.and_eq_true] at hidle
      obtain ⟨⟨-, hsome⟩, hempty⟩ := hidle
      obtain ⟨link, hl⟩ := Option.isSome_iff_exists.mp hsome
      generalize hx : c.pull now _ _ _ _ = x
      obtain ⟨hs, ⟨e, hp⟩ | ⟨deadline, hp⟩⟩ := Receive.pull_cases hx hl
      · rw [hs, hp]
        exact .turnsBack c (hc ▸ rfl) e
      · rw [hs, hp]
        exact .pulls c (hc ▸ rfl) position _ link deadline hl (List.isEmpty_iff.mp hempty)
    · exact .queues c (hc ▸ rfl) _ rfl
  | expanding list =>
    simp only [Receive.step, hc]
    split
    · exact .turnsBack c (hc ▸ rfl) _
    · exact .queues c (hc ▸ rfl) _ rfl
  | opening list connection =>
    simp only [Receive.step, hc]
    exact .queues c (hc ▸ rfl) _ rfl
  | linking list connection problem =>
    simp only [Receive.step, hc]
    split
    · next ho => exact receivers_linked ho ▸ .turnsBack c (hc ▸ rfl) _
    · next link t ho =>
      have ht := receivers_linked ho
      have hlane := Client.lane_addLane_self (s := t.leave .connection connection)
        (Nat.lt_of_lt_of_eq hr (congrArg List.length ht.symm)) link
      generalize hx : c.pull now _ _ _ _ = x
      obtain ⟨hs, hp⟩ := Receive.pull_cases hx (congrArg Lane.link hlane)
      have hposition : (t.receiver c.receiver).lanes.length =
          (s.receiver c.receiver).lanes.length :=
        congrArg (·.lanes.length) (Client.receiver_congr ht _)
      have hsets := Client.receivers_addLane_congr ht c.receiver link
      refine hs.trans hsets ▸ .adds c list connection link problem hc _ ?_
      obtain ⟨e, hp⟩ | ⟨deadline, hp⟩ := hp
      · exact .inl ⟨e, by rw [hp]; rfl⟩
      · exact .inr ⟨_, deadline, by rw [hp, ← hposition]; rfl⟩
  | pulling position ticket link deadline =>
    simp only [Receive.step, hc]
    exact .handsOut c position ticket link deadline hc _ rfl

/-! ### Settling and closing -/

theorem Settle.deed (now : Nat) (s : Client) (c : Settle) :
    Deed s (.settling c) (Call.step now s (.settling c)).state.receivers
      (Call.step now s (.settling c)).progress := by
  simp only [Call.step, Step.map]
  cases hc : c.point with
  | arriving =>
    simp only [Settle.step, hc]
    split
    · next hclosed => exact .refuses c hc hclosed
    · split
      · next hn => exact .loses c (.unnamed hc hn)
      · next number hn => exact .looksUp c number _ hc hn
  | finding number list =>
    simp only [Settle.step, hc]
    split
    · next hn => exact .loses c (.unlisted number list hc hn)
    · next position hp => exact .finds c number list position _ hc hp
  | entering position ticket =>
    simp only [Settle.step, hc]
    split
    · next hn => exact .loses c (.unknown position ticket hc hn)
    · next m hm =>
      split
      · next hl => exact .misses c position ticket m hc hm hl
      · next link hl => exact .asks c position ticket link m hc hm hl _ rfl
  | asking position ticket problem =>
    simp only [Settle.step, hc]
    exact .settles c position ticket problem hc

theorem Close.goOn_cases (s : Client) (c : Close) (tally : Close.Tally) (lanes : List Nat) :
    (c.goOn s tally lanes).state.receivers = s.receivers ∧
      c.GoesOn lanes ((c.goOn s tally lanes).progress.map .closing .closed) := by
  cases lanes with
  | nil => exact ⟨rfl, .inl ⟨_, rfl⟩⟩
  | cons position rest => exact ⟨rfl, .inr ⟨position, _, rest, tally, rfl, rfl⟩⟩

theorem Close.deed (now : Nat) (s : Client) (c : Close) :
    Deed s (.closing c) (Call.step now s (.closing c)).state.receivers
      (Call.step now s (.closing c)).progress := by
  simp only [Call.step, Step.map]
  cases hc : c.point with
  | marking =>
    simp only [Close.step, hc]
    split
    · exact .returns c hc
    · exact .marks c hc _
  | taking list =>
    simp only [Close.step, hc]
    obtain ⟨hs, hp⟩ := Close.goOn_cases ((s.unlisted c.receiver).leave (.list c.receiver) list) c
      { lanes := (s.receiver c.receiver).listed.length } (s.receiver c.receiver).listed
    exact hs ▸ .unlists c list hc _ hp
  | entering position ticket rest tally =>
    simp only [Close.step, hc]
    split
    · obtain ⟨hs, hp⟩ := Close.goOn_cases
        ((s.emptied c.receiver position).leave (.lane c.receiver position) ticket) c
        { tally with
          unsettled := tally.unsettled + (s.lane c.receiver position).inFlight.length } rest
      exact hs ▸ .disposes c position ticket rest tally hc _ (.inl hp)
    · exact .disposes c position ticket rest tally hc _ (.inr ⟨_, _, rfl⟩)
  | disposing position ticket problem rest tally =>
    simp only [Close.step, hc]
    obtain ⟨hs, hp⟩ := Close.goOn_cases (s.leave (.lane c.receiver position) ticket) c
      { tally with result := Close.firstFailure tally.result problem } rest
    exact hs ▸ .goesOn c position ticket problem rest tally hc _ hp

/-- **What a step does.** -/
theorem Call.deed (now : Nat) {s : Client} {c : Call}
    (hr : ∀ r, c.receiver? = some r → r < s.receivers.length) :
    Deed s c (c.step now s).state.receivers (c.step now s).progress := by
  cases c with
  | sending c =>
    have hs := Send.receivers_step s c
    exact hs ▸ .sends c (c.step s).progress
  | opening c => exact Open.deed now s c
  | receiving c => exact Receive.deed (hr _ rfl)
  | settling c => exact Settle.deed now s c
  | closing c => exact Close.deed now s c

end PeekLock.Remote
