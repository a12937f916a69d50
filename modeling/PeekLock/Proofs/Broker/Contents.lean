import PeekLock.Proofs.Broker.Batches
import PeekLock.Proofs.Broker.Whereabouts

/-!
# PeekLock.Proofs.Broker.Contents

What a message says, from its sender to each of its receivers.

A message is built from a body and options once, and a send makes copies of
that message only (`Sending`).  No copy ever changes what it says: wherever
it is, and whenever it is delivered, it says what it said when it arrived.
-/

namespace PeekLock

/-- A message says what a body and options have it say. -/
structure Message.Carries (m : Message) (body : List UInt8) (options : SendOptions) : Prop where
  body : m.body = body
  contentType : m.contentType = options.contentType
  properties : m.properties = options.properties
  id : ∀ id, options.messageId = some id → m.id = id

/-- Deliveries make no difference to that. -/
theorem Message.Carries.of_sameContent {m k : Message} {body : List UInt8} {options : SendOptions}
    (h : k.Carries body options) (hm : m.SameContent k) : m.Carries body options where
  body := hm.body.trans h.body
  contentType := hm.contentType.trans h.contentType
  properties := hm.properties.trans h.properties
  id id hid := hm.id.trans (h.id id hid)

namespace Broker

variable {target : String} {body : List UInt8} {options : SendOptions}

/-! ## What a send makes -/

theorem carries_buildMessage (b : Broker) (now : Nat) (body : List UInt8) (options : SendOptions) :
    (b.buildMessage now body options).1.Carries body options := by
  cases hid : options.messageId with
  | none =>
    rw [buildMessage_eq hid]
    exact ⟨rfl, rfl, rfl, fun id h => nomatch hid.symm.trans h⟩
  | some given =>
    rw [buildMessage_of_given hid]
    exact ⟨rfl, rfl, rfl, fun id h => Option.some.inj (hid.symm.trans h)⟩

theorem message_of_mem_copiesFor {m : Message} {n : Nat} {entities : List String}
    {p : String × Copy} (h : p ∈ copiesFor m n entities) : p.2.message = m := by
  induction entities generalizing n with
  | nil => contradiction
  | cons entity rest ih =>
    obtain rfl | h := List.mem_cons.mp h
    · rfl
    · exact ih h

/-- Every target has a destination, if only itself. -/
theorem destinations_ne_nil (b : Broker) (target : String) : b.destinations target ≠ [] := by
  unfold destinations
  split <;> exact List.cons_ne_nil _ _

/-- How far the send of a message has come, and what it has made so far. -/
inductive Sending (target : String) (body : List UInt8) (options : SendOptions) :
    List Message → Progress Call Outcome → Prop where
  | checking : Sending target body options [] (.on (.sending (.checking target body options)))
  | refused (e : BusError) : Sending target body options [] (.done (.sent (.error e)))
  | enqueueing (m : Message) (h : m.Carries body options) :
    Sending target body options [] (.on (.sending (.enqueueing target m)))
  | announcing {sent : List Message} (id : String) (hne : sent ≠ [])
    (h : ∀ m ∈ sent, m.Carries body options) :
    Sending target body options sent (.on (.sending (.announcing target id)))
  | done {sent : List Message} (id : String) (hne : sent ≠ [])
    (h : ∀ m ∈ sent, m.Carries body options) :
    Sending target body options sent (.done (.sent (.ok id)))

/-- A step of the send takes it on. -/
theorem Sending.step {sent : List Message} {c : Call}
    (h : Sending target body options sent (.on c)) (now : Nat) (b : Broker) :
    Sending target body options (sent ++ ((c.transfer b).arrivals b).map (·.2.message))
      (c.step now b).progress := by
  cases h with
  | checking =>
    have hnone : ((Call.transfer b (.sending (.checking target body options))).arrivals b).map
        (·.2.message) = [] := rfl
    rw [hnone, List.append_nil, Call.step, Send.step]
    split
    · exact .refused _
    · exact .enqueueing _ (carries_buildMessage b now body options)
  | enqueueing m h =>
    refine .announcing m.id (fun hnil => ?_) fun k hk => ?_
    · have hlength := congrArg List.length hnil
      simp only [Call.transfer, Transfer.arrivals, List.nil_append, List.length_map,
        length_copiesFor, List.length_nil, List.length_eq_zero_iff] at hlength
      exact destinations_ne_nil b target hlength
    · obtain ⟨p, hp, rfl⟩ := List.mem_map.mp hk
      rw [message_of_mem_copiesFor hp]
      exact h
  | announcing id hne h =>
    have hnone : ((Call.transfer b (.sending (.announcing target id))).arrivals b).map
        (·.2.message) = [] := rfl
    rw [hnone, List.append_nil]
    exact .done id hne h

/-- Whatever has been made says what it was sent to say. -/
theorem Sending.carries {sent : List Message} {p : Progress Call Outcome}
    (h : Sending target body options sent p) : ∀ m ∈ sent, m.Carries body options := by
  cases h with
  | announcing id hne h => exact h
  | done id hne h => exact h
  | _ => exact fun m hm => absurd hm List.not_mem_nil

namespace Traffic

/-- What each step of a call keeps, of what the call has sent and of how it goes on, holds in
every later traffic. -/
theorem Leads.sent_invariant {P : List Message → Progress Call Outcome → Prop} {s t : Traffic}
    (h : s.Leads t) {i : Nat} {x : Entry} (hi : s.calls[i]? = some x)
    (hx : P (s.sentBy i) x.progress)
    (step : ∀ now b sent c, P sent (.on c) →
      P (sent ++ ((c.transfer b).arrivals b).map (·.2.message)) (c.step now b).progress)
    (drop : ∀ sent c, P sent (.on (.receiving c)) → P sent (.done .dropped)) :
    ∃ y, t.calls[i]? = some y ∧ P (t.sentBy i) y.progress := by
  refine h.invariant (P := fun t => ∃ y, t.calls[i]? = some y ∧ P (t.sentBy i) y.progress)
    ⟨x, hi, hx⟩ ?_ ?_ ?_ ?_ ?_
  · rintro t q - ⟨y, hy, hp⟩
    obtain ⟨hlt, -⟩ := List.getElem?_eq_some_iff.mp hy
    exact ⟨y, (List.getElem?_append_left hlt).trans hy, hp⟩
  · rintro t j began c hj - ⟨y, hy, hp⟩
    by_cases hji : j = i
    · subst hji
      rw [hj] at hy
      cases hy
      rw [sentBy_advance]
      exact ⟨_, getElem?_advance hj, step _ _ _ _ hp⟩
    · rw [sentBy_advance_ne hji]
      exact ⟨y, (getElem?_advance_ne hji).trans hy, hp⟩
  · rintro t j began c hj ⟨y, hy, hp⟩
    by_cases hji : j = i
    · subst hji
      rw [hj] at hy
      cases hy
      obtain ⟨hlt, -⟩ := List.getElem?_eq_some_iff.mp hj
      exact ⟨_, List.getElem?_set_self hlt, drop _ _ hp⟩
    · exact ⟨y, (List.getElem?_set_ne hji).trans hy, hp⟩
  · exact fun t ms ih => ih
  · exact fun t locks _ ih => ih

/-- A send goes through its stages, whatever else is asked of the bus. -/
theorem Reachable.sending {s t : Traffic} (hs : s.Reachable)
    (ht : (s.accept (.send target body options)).Leads t) :
    ∃ y, t.calls[s.calls.length]? = some y ∧
      Sending target body options (t.sentBy s.calls.length) y.progress := by
  refine ht.sent_invariant (P := Sending target body options) List.getElem?_concat_length ?_
    (fun now b sent c h => h.step now b) fun sent c h => nomatch h
  rw [hs.sentBy_accept]
  exact .checking

theorem mem_sentBy {t : Traffic} {i : Nat} {m : Message} :
    m ∈ t.sentBy i ↔ ∃ a ∈ t.arrivals, a.call = i ∧ a.copy.message = m := by
  simp only [sentBy, List.mem_map, List.mem_filter, decide_eq_true_eq, and_assoc]

/-! ## What a delivery hands out -/

/-- What is delivered says what it said when it arrived. -/
theorem Reachable.sameContent_of_delivery {t u : Traffic} {m : Move} {d : Lock} {a : Placement}
    (h : t.Reachable) (hm : t.after m = some u) (hd : d ∈ t.deliveries m) (ha : a ∈ t.arrivals)
    (hs : d.copy.serial = a.copy.serial) : d.copy.message.SameContent a.copy.message := by
  have hstep : t.Leads u := (Leads.refl t).step hm
  have hlocked : u.Has d.entity d.copy :=
    .locked d (mem_locks_of_mem_deliveries hm hd) rfl rfl
  have haccounts : u.Accounts a := (h.leads hstep).accounts (hstep.arrivals_subset ha)
  exact haccounts.content d.copy (.inr ⟨d.entity, hlocked⟩) hs

/-- What a move delivers is among the messages that a receive ends with. -/
theorem received_of_mem_deliveries {t u : Traffic} {m : Move} {d : Lock}
    (hm : t.after m = some u) (hd : d ∈ t.deliveries m) :
    ∃ (i began : Nat) (messages : List Message),
      u.calls[i]? = some ⟨began, .done (.received (.ok messages))⟩ ∧
        d.copy.message ∈ messages := by
  have hne : t.deliveries m ≠ [] := List.ne_nil_of_mem hd
  obtain ⟨i, began, c, rfl, hi, r, most, ht⟩ := advance_of_deliveries hne
  obtain ⟨-, rfl⟩ := eq_advance hi hm
  rw [deliveries_advance hi] at hne hd
  obtain ⟨k, -, hp⟩ := progress_of_take ht hne
  have hmem : d.copy.message ∈
      ((c.transfer t.broker).deliveries t.broker).map (·.copy.message) := List.mem_map_of_mem hd
  exact ⟨i, began, _, hp ▸ getElem?_advance hi, hmem⟩

end Traffic

end Broker

end PeekLock
