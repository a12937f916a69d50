import PeekLock.Proofs.Remote.Disposals

/-!
# PeekLock.Proofs.Remote.Closings

Closing a receiver is complete.

When the close that has marked a receiver returns, every link that was ever
opened for the receiver was disposed once, in the order of the lanes, and
none is opened any more.  Whoever comes to a closed receiver is turned
away, and the other side is not asked for anything.
-/

namespace PeekLock.Remote

open Identifier (counting)

/-! ## Calls that come too late -/

/-- Whether a demand is to receive from a receiver, or to settle one of its messages. -/
def Demand.Uses (r : Nat) : Demand → Prop
  | .receive r' .. => r' = r
  | .settle r' .. => r' = r
  | _ => False

/-- What such a demand gets from a closed receiver. -/
def Demand.refusal : Demand → Outcome
  | .receive .. => .received (.error .receiverClosed)
  | _ => .settled (.error .receiverClosed)

/-- A call that has come too late: it will be refused in its first step, or it was.  (A receive may
have been dropped before.) -/
inductive Demand.Refused (s : Client) (q : Demand) : Progress Call Outcome → Prop where
  | before (hr : ∀ now, q.call.isReady now s = true)
    (hs : ∀ now, q.call.step now s = { state := s, progress := .done q.refusal }) :
    Refused s q (.on q.call)
  | after : Refused s q (.done q.refusal)
  | dropped : Refused s q (.done .dropped)

/-- A closed receiver turns everybody away at once. -/
theorem Demand.refused_call {s : Client} {q : Demand} {r : Nat} (hq : q.Uses r)
    (hc : (s.receiver r).closed = true) : q.Refused s (.on q.call) := by
  cases q with
  | receive r' most timeout =>
    cases hq
    refine .before (fun _ => rfl) fun now => ?_
    simp only [Demand.call, Call.step, Receive.step, hc, if_true]
    rfl
  | settle r' token verdict =>
    cases hq
    refine .before (fun _ => rfl) fun now => ?_
    simp only [Demand.call, Call.step, Settle.step, hc, if_true]
    rfl
  | _ => contradiction

theorem Demand.Refused.of_step {s t : Client} {q : Demand} {c : Call} {now : Nat}
    (h : q.Refused s (.on c)) : q.Refused t (c.step now s).progress := by
  cases h with
  | before _ hs =>
    rw [hs]
    exact .after

/-- It stays refused as long as the receiver is closed. -/
theorem Demand.Refused.carry {s t : Client} {q : Demand} {p : Progress Call Outcome} {r : Nat}
    (h : q.Refused s p) (hq : q.Uses r) (hc : (t.receiver r).closed = true) : q.Refused t p := by
  cases h with
  | before => exact Demand.refused_call hq hc
  | after => exact .after
  | dropped => exact .dropped

namespace Register

variable {s t : Register} {r : Nat}

/-- Calls from that number on that use a receiver are refused. -/
def Refuses (s : Register) (r n : Nat) : Prop :=
  (s.traffic.client.receiver r).closed = true ∧
    ∀ (i : Nat) (q : Demand) (p : Progress Call Outcome), n ≤ i →
      s.traffic.calls[i]? = some ⟨q, p⟩ → q.Uses r → q.Refused s.traffic.client p

theorem Refuses.turn {n : Nat} (h : s.Refuses r n) (hs : s.traffic.Sound) (ht : Turn s t) :
    t.Refuses r n := by
  obtain ⟨hc, hrefused⟩ := h
  cases ht with
  | advances i q c hi hr ho =>
    have hclosed := ((c.deed s.traffic.now (hs.fits i q c hi).known).grows rfl).closed r hc
    refine ⟨hclosed, fun j q' p hn hj hq => ?_⟩
    obtain ⟨-, hj⟩ | ⟨rfl, hx⟩ := Traffic.entry_of_set hj
    · exact (hrefused j q' p hn hj hq).carry hq hclosed
    · cases hx
      exact (hrefused i q _ hn hi hq).of_step
  | passes m a ha =>
    have hclosed : (a.client.receiver r).closed = true :=
      Client.receiver_congr ha.receivers r ▸ hc
    refine ⟨hclosed, fun j q p hn hj hq => ?_⟩
    obtain hj | ⟨-, -, hj⟩ | ⟨k, hj, o, hp, ho⟩ := ha.entries j _ hj
    · exact (hrefused j q p hn hj hq).carry hq hclosed
    · change p = .on q.call at hj
      rw [hj]
      exact Demand.refused_call hq hclosed
    · change p = .done o at hp
      rw [hp]
      obtain rfl | ⟨hpulling, -⟩ := ho
      · exact .dropped
      · -- a receive that was refused from the beginning waits for no messages
        have hk := hrefused j q _ hn hj hq
        generalize hp : Progress.on (Call.receiving k) = p at hk
        cases hk with
        | before =>
          cases q <;> cases hp
          contradiction
        | _ => cases hp

theorem Leads.refuses (hl : s.Leads t) (hs : s.Reachable)
    (hc : (s.traffic.client.receiver r).closed = true) : t.Refuses r s.traffic.calls.length := by
  refine hl.invariant (P := (·.Refuses r s.traffic.calls.length)) ⟨hc, fun i q p hn hi => ?_⟩
    fun u w hu ht hr => hr.turn (hs.leads hu).traffic.sound ht
  rw [List.getElem?_eq_none hn] at hi
  contradiction

/-! ## A close that has returned -/

/-- What a close has done, once it has returned that result. -/
structure Finished (s : Register) (r : Nat) (result : Except BusError Unit) : Prop where
  /-- Every link that was opened for the receiver was disposed, in the order of the lanes. -/
  disposed : (s.disposalsOf r).map (·.link) = s.openedFor r
  /-- The other side has seen that once. -/
  once : ∀ link ∈ s.openedFor r, s.traffic.client.disposed.count link = 1
  /-- No lane has a link, or a message that is not settled. -/
  empty : ∀ l ∈ (s.traffic.client.receiver r).lanes, l.link = none ∧ l.inFlight = []
  ok : result = .ok () ↔ ∀ d ∈ s.disposalsOf r, d.problem = none
  /-- Of several failures the first one is returned, and links are disposed after it as well. -/
  failed : ∀ e, result = .error e → ∃ before d after problem,
    s.disposalsOf r = before ++ d :: after ∧ (∀ x ∈ before, x.problem = none) ∧
      d.problem = some problem ∧ e = .internalError problem

theorem Reachable.nodup_openings (h : s.Reachable) : (s.openings.map (·.link)).Nodup := by
  rw [h.agrees.openings]
  exact List.nodup_range

/-- A link that was disposed for a receiver was opened for it. -/
theorem Stands.opened_of_disposed (h : s.Stands r) {d : Disposal} (hd : d ∈ s.disposalsOf r) :
    d.link ∈ s.openedFor r := by
  have hdisposed (k : Nat) (hk : s.Disposed r k) : d.link ∈ s.openedFor r :=
    List.mem_of_mem_take (hk.disposals ▸ List.mem_map_of_mem hd)
  cases h with
  | opened ho hc hd => exact hdisposed 0 hd
  | marked i ticket hm hl hc hi hd => exact hdisposed 0 hd
  | unlisted i k hu => exact hdisposed k hu.disposed

/-- What is disposed of a link of a receiver is disposed for that receiver. -/
theorem Reachable.count_disposed (h : s.Reachable) {link : Nat} (hm : link ∈ s.openedFor r) :
    s.traffic.client.disposed.count link = ((s.disposalsOf r).map (·.link)).count link := by
  rw [← h.agrees.disposals, List.count_eq_countP, List.count_eq_countP, List.countP_map,
    List.countP_map, disposalsOf, List.countP_filter]
  refine List.countP_congr fun d hd => ?_
  suffices hr : (d.link == link) = true → d.receiver = r by simpa using hr
  intro hlink
  rw [beq_iff_eq] at hlink
  have hopened := (h.stands d.receiver).opened_of_disposed
    (List.mem_filter.mpr ⟨hd, decide_eq_true rfl⟩)
  rw [hlink] at hopened
  obtain ⟨o, ho, hol⟩ := List.mem_map.mp hopened
  obtain ⟨o', ho', hol'⟩ := List.mem_map.mp hm
  obtain ⟨ho, hor⟩ := List.mem_filter.mp ho
  obtain ⟨ho', hor'⟩ := List.mem_filter.mp ho'
  cases List.inj_on_of_nodup_map h.nodup_openings ho ho' (hol.trans hol'.symm)
  exact (of_decide_eq_true hor).symm.trans (of_decide_eq_true hor')

/-- A close that has returned has gone through all lanes. -/
theorem Stands.unlisted_of_done (h : s.Stands r) {i : Nat} {result : Except BusError Unit}
    (hm : i ∈ s.closersOf r)
    (hi : s.traffic.calls[i]? = some ⟨.close r, .done (.closed result)⟩) :
    s.Unlisted r i (s.openedFor r).length ∧ result = verdict (s.disposalsOf r) := by
  cases h with
  | opened ho hc hd =>
    rw [hc] at hm
    contradiction
  | marked j ticket hr hl hc hj hd =>
    rw [hc, List.mem_singleton] at hm
    subst hm
    rw [hi] at hj
    cases hj
  | unlisted j k hu =>
    have hc := hu.closers
    rw [hc, List.mem_singleton] at hm
    subst hm
    obtain ⟨p, hj, hv⟩ := hu.call
    rw [hi] at hj
    cases hj
    cases hv with
    | returns hk => exact ⟨hk ▸ hu, rfl⟩

theorem Reachable.finished (h : s.Reachable) {i : Nat} {result : Except BusError Unit}
    (hm : i ∈ s.closersOf r)
    (hi : s.traffic.calls[i]? = some ⟨.close r, .done (.closed result)⟩) :
    s.Finished r result := by
  obtain ⟨hu, rfl⟩ := (h.stands r).unlisted_of_done hm hi
  have hdisposed : (s.disposalsOf r).map (·.link) = s.openedFor r := by
    rw [hu.disposed.disposals, List.take_length]
  refine ⟨hdisposed, fun link hlink => ?_, fun l hl => ?_, verdict_eq_ok, fun e => verdict_eq_error⟩
  · rw [h.count_disposed hlink, hdisposed]
    exact List.count_eq_one_of_mem ((List.filter_sublist.map _).nodup h.nodup_openings) hlink
  · have hlinks := hu.disposed.links
    rw [List.drop_length, List.map_nil, List.append_nil] at hlinks
    have hlink : l.link ∈ (s.traffic.client.receiver r).links := List.mem_map_of_mem hl
    rw [hlinks] at hlink
    have hnone := List.eq_of_mem_replicate hlink
    exact ⟨hnone, ((h.traffic.sound.client r).lanes l hl).gone hnone⟩

/-- A close that has returned stays as it is, and nothing is opened for its receiver any more. -/
theorem Leads.closed_of_closed (hl : s.Leads t) (hs : s.Reachable) {i : Nat}
    {result : Except BusError Unit} (hm : i ∈ s.closersOf r)
    (hi : s.traffic.calls[i]? = some ⟨.close r, .done (.closed result)⟩) :
    (i ∈ t.closersOf r ∧ t.traffic.calls[i]? = some ⟨.close r, .done (.closed result)⟩) ∧
      t.openedFor r = s.openedFor r := by
  refine hl.invariant (P := fun t => (i ∈ t.closersOf r ∧
    t.traffic.calls[i]? = some ⟨.close r, .done (.closed result)⟩) ∧
      t.openedFor r = s.openedFor r) ⟨⟨hm, hi⟩, rfl⟩ fun u w hu ht ⟨⟨hm, hi⟩, ho⟩ => ?_
  have hstands := (hs.leads hu).stands r
  refine ⟨?_, ((hstands.unlisted_of_done hm hi).1.openedFor_turn ht).trans ho⟩
  cases ht with
  | advances j q c hj =>
    refine ⟨?_, ?_⟩
    · rw [closersOf_note]
      exact List.mem_append_left _ hm
    · rw [note, Traffic.advance, List.getElem?_set_ne, hi]
      rintro rfl
      rw [hi] at hj
      cases hj
  | passes m a ha => exact ⟨hm, ha.kept i _ hi fun c hp => by cases hp⟩

/-! ## Closing -/

/-- What closing a receiver comes to. -/
structure Closure (s : Register) (r : Nat) : Prop where
  /-- As long as the receiver is open, its lanes have the links that were opened for it, and none
  of them was disposed. -/
  opened : (s.traffic.client.receiver r).closed = false → s.closersOf r = [] ∧
    (s.traffic.client.receiver r).links = (s.openedFor r).map some ∧ s.disposalsOf r = []
  /-- One close has marked the receiver if it is closed. -/
  closer : (s.traffic.client.receiver r).closed = true → ∃ i, s.closersOf r = [i]
  /-- All others return at once. -/
  others : ∀ (i : Nat) (result : Except BusError Unit),
    s.traffic.calls[i]? = some ⟨.close r, .done (.closed result)⟩ → i ∉ s.closersOf r →
      result = .ok ()
  /-- When the one that has marked the receiver has returned, everything is disposed, and nothing is
  opened any more. -/
  finished : ∀ (i : Nat) (result : Except BusError Unit), i ∈ s.closersOf r →
    s.traffic.calls[i]? = some ⟨.close r, .done (.closed result)⟩ →
      ∀ t, s.Leads t → t.Finished r result ∧ t.openedFor r = s.openedFor r
  /-- Whoever comes to the receiver when it is closed is refused. -/
  refused : (s.traffic.client.receiver r).closed = true → ∀ t, s.Leads t →
    ∀ (i : Nat) (q : Demand) (p : Progress Call Outcome), s.traffic.calls.length ≤ i →
      t.traffic.calls[i]? = some ⟨q, p⟩ → q.Uses r → q.Refused t.traffic.client p

/-- **Closing is complete**, in whatever order the calls take their steps and whatever the other
side answers. -/
theorem Reachable.closure (h : s.Reachable) : s.Agrees ∧ ∀ r, s.Closure r := by
  refine ⟨h.agrees, fun r => ?_⟩
  have hstands := h.stands r
  refine ⟨fun ho => ?_, fun hc => ?_, fun i result hi hm => ?_, fun i result hm hi t hl => ?_,
    fun hc t hl => (hl.refuses h hc).2⟩
  · cases hstands with
    | opened _ hc hd => exact ⟨hc, hd.links, hd.disposals_zero⟩
    | marked _ _ hm =>
      rw [ho] at hm
      contradiction
    | unlisted _ _ hu =>
      have hm := hu.closed
      rw [ho] at hm
      contradiction
  · cases hstands with
    | opened ho =>
      rw [hc] at ho
      contradiction
    | marked i _ _ _ hclosers => exact ⟨i, hclosers⟩
    | unlisted i _ hu => exact ⟨i, hu.closers⟩
  · exact (h.orderly.closed i r result hi).resolve_left hm
  · obtain ⟨⟨hm, hi⟩, hopened⟩ := hl.closed_of_closed h hm hi
    exact ⟨(h.leads hl).finished hm hi, hopened⟩

/-- The error that a call has ended with. -/
def errorOf : Progress Call Outcome → Option BusError
  | .done (.received (.error e)) => some e
  | .done (.settled (.error e)) => some e
  | .done (.closed (.error e)) => some e
  | _ => none

/-- A receiver is closed twice while a receive is about to open another lane.  One message is not
settled then, and the link that it came on cannot be disposed properly.  Afterwards somebody wants
to receive, and to settle the message. -/
def closedWhileOpening : List Move := [
  .begin (.createReceiver "orders"), .advance 0, .advance 0, .advance 0,
  .arrange (Table.empty.put "dispose_receiver" [some "gone"]) (Table.empty.put "orders" [default]),
  .begin (.receive 0 1 default), .advance 1, .advance 1, .advance 1,
  .begin (.receive 0 1 default), .advance 2, .advance 2, .advance 2,
  .begin (.close 0), .advance 3, .begin (.close 0), .advance 4,
  .advance 2, .advance 2, .advance 3, .advance 3, .advance 3, .advance 2, .advance 3, .advance 3,
  .begin (.receive 0 1 default), .advance 5,
  .begin (.settle 0 (lockToken counting 0 0) .complete), .advance 6]

theorem closure_closedWhileOpening : ∃ s, ({} : Register).run closedWhileOpening = some s ∧
    s.closersOf 0 = [3] ∧ s.openedFor 0 = [0, 1] ∧
    (s.disposalsOf 0).map (fun d => (d.link, d.problem)) = [(0, some "gone"), (1, none)] ∧
    s.traffic.calls.map (fun x => errorOf x.progress) =
      [none, none, none, some (.internalError "gone"), none,
        some .receiverClosed, some .receiverClosed] ∧
    s.Agrees ∧ ∀ r, s.Closure r := by
  have hrun : (({} : Register).run closedWhileOpening).any fun s =>
      s.closersOf 0 = [3] ∧ s.openedFor 0 = [0, 1] ∧
      (s.disposalsOf 0).map (fun d => (d.link, d.problem)) = [(0, some "gone"), (1, none)] ∧
      s.traffic.calls.map (fun x => errorOf x.progress) =
        [none, none, none, some (.internalError "gone"), none,
          some .receiverClosed, some .receiverClosed] := by
    decide +kernel
  obtain ⟨s, hs, hp⟩ := (Option.any_eq_true _ _).mp hrun
  obtain ⟨hclosers, hopened, hdisposals, herrors⟩ := of_decide_eq_true hp
  exact ⟨s, hs, hclosers, hopened, hdisposals, herrors, Reachable.closure (reachable_of_run hs)⟩

end Register

end PeekLock.Remote
