import PeekLock.Proofs.Remote.Books
import PeekLock.Proofs.Remote.Rest

/-!
# PeekLock.Proofs.Remote.Sends

How a send to the remote bus ends when the other side obliges.

If no sender and no message is refused, the given id decides: it is the
only thing that is looked at before the other side is asked, and a batch
without messages does not even get there.  The target is handed on as it
is.  As on the in-memory bus the verdict is known from the start, and no
step changes it.
-/

namespace PeekLock.Remote

/-! ## The other side -/

/-- Whether a request is made in order to send something. -/
def Request.sends : Request → Bool
  | .createSender _ | .sendMessage _ | .sendMessages .. => true
  | _ => false

/-- The other side refuses no sender, no message and no batch. -/
def Network.Obliges (n : Network) : Prop :=
  ∀ r : Request, r.sends = true → ∀ o ∈ n.outcomes.getD r.kind [], o = none

theorem Network.ask_of_obliges {n : Network} (h : n.Obliges) {r : Request} (hr : r.sends = true) :
    (n.ask r).1 = none := by
  rw [Network.ask]
  split
  · rfl
  · next outcome rest ho => exact h r hr outcome (ho ▸ List.mem_cons_self)

namespace Client

/-- Of the outcomes that were arranged some have been used up, and none have come in. -/
structure Subsides (s t : Client) : Prop where
  suffix : ∀ kind, t.network.outcomes.getD kind [] <:+ s.network.outcomes.getD kind []

variable {s t u : Client}

theorem Subsides.of_eq (h : t.network.outcomes = s.network.outcomes) : s.Subsides t :=
  ⟨fun _ => h ▸ List.suffix_refl _⟩

theorem Subsides.trans (h : s.Subsides t) (k : t.Subsides u) : s.Subsides u :=
  ⟨fun kind => (k.suffix kind).trans (h.suffix kind)⟩

theorem subsides_ask {r : Request} {problem : Option String} (ha : s.ask r = (problem, t)) :
    s.Subsides t := by
  have ht : (s.ask r).2 = t := congrArg Prod.snd ha
  subst ht
  refine ⟨fun kind => ?_⟩
  change (s.network.ask r).2.outcomes.getD kind [] <:+ _
  rw [Network.ask]
  split
  · exact List.suffix_refl _
  · next outcome rest ho =>
    rw [Table.getD_put]
    split
    · next hk =>
      rw [hk]
      exact ⟨[outcome], ho.symm⟩
    · exact List.suffix_refl _

theorem subsides_linked {entity : EntityPath} {problem : Option String}
    {result : Except BusError Nat} (ho : linked s entity problem = (result, t)) :
    s.Subsides t := by
  cases problem <;> cases ho <;> exact .of_eq rfl

theorem Subsides.obliges (h : s.Subsides t) (hs : s.network.Obliges) : t.network.Obliges :=
  fun r hr o ho => hs r hr o ((h.suffix r.kind).subset ho)

end Client

theorem Send.subsides (s : Client) (c : Send) : s.Subsides (c.step s).state := by
  cases c with
  | buildingOne | buildingBatch =>
    simp only [Send.step]
    split <;> exact .of_eq rfl
  | creating =>
    simp only [Send.step]
    split
    · next ha => exact Client.Subsides.trans (Client.subsides_ask ha :) (.of_eq rfl)
    · next ha => exact Client.Subsides.trans (Client.subsides_ask ha :) (.of_eq rfl)
  | sending =>
    simp only [Send.step]
    split
    · next ha => exact Client.Subsides.trans (Client.subsides_ask ha :) (.of_eq rfl)
    · next ha => exact Client.Subsides.trans (Client.subsides_ask ha :) (.of_eq rfl)
  | disposing => exact Client.subsides_ask rfl

theorem Open.subsides (s : Client) (c : Open) : s.Subsides (c.step s).state := by
  cases c with
  | checking =>
    simp only [Open.step]
    split <;> exact .of_eq rfl
  | opening path ticket => exact Client.subsides_ask (s := s) (r := .openLink path) rfl
  | linking =>
    simp only [Open.step]
    split
    · next ho => exact Client.Subsides.trans (Client.subsides_linked ho :) (.of_eq rfl)
    · next ho => exact Client.Subsides.trans (Client.subsides_linked ho :) (.of_eq rfl)

theorem Receive.subsides_pull (now : Nat) (s : Client) (c : Receive) (logs : List LogRecord)
    (position ticket : Nat) : s.Subsides (c.pull now s logs position ticket).state := by
  rw [Receive.pull]
  split
  · exact .of_eq rfl
  · split
    · next ha => exact Client.Subsides.trans (Client.subsides_ask ha :) (.of_eq rfl)
    · next ha => exact (Client.subsides_ask ha :)

theorem Receive.subsides (now : Nat) (s : Client) (c : Receive) :
    s.Subsides (c.step now s).state := by
  cases hc : c.point with
  | arriving | expanding =>
    simp only [Receive.step, hc]
    split <;> exact .of_eq rfl
  | surveying list =>
    simp only [Receive.step, hc]
    split
    · next position _ =>
      have hdrawn : s.Subsides
          ((s.leave (.list c.receiver) list).draw (.lane c.receiver position) .sole).2 := .of_eq rfl
      exact hdrawn.trans (Receive.subsides_pull ..)
    · exact .of_eq rfl
  | opening =>
    simp only [Receive.step, hc]
    exact Client.subsides_ask (s := s) (r := .openLink (s.receiver c.receiver).entity) rfl
  | linking =>
    simp only [Receive.step, hc]
    split
    · next ho => exact Client.Subsides.trans (Client.subsides_linked ho :) (.of_eq rfl)
    · next ho =>
      refine Client.Subsides.trans ?_ (Receive.subsides_pull ..)
      exact Client.Subsides.trans (Client.subsides_linked ho :) (.of_eq rfl)
  | pulling =>
    simp only [Receive.step, hc]
    exact .of_eq rfl

theorem Settle.subsides (s : Client) (c : Settle) : s.Subsides (c.step s).state := by
  have hnetwork := (c.network_step s 0).2.2
  cases ha : (Call.settling c).asking? s 0 with
  | none =>
    rw [ha] at hnetwork
    exact .of_eq (congrArg Network.outcomes hnetwork)
  | some a =>
    rw [ha] at hnetwork
    have hasked : s.Subsides (s.ask a.request).2 := Client.subsides_ask rfl
    exact hasked.trans (.of_eq (congrArg Network.outcomes hnetwork))

theorem Close.outcomes_goOn (s : Client) (c : Close) (tally : Close.Tally) (rest : List Nat) :
    (c.goOn s tally rest).state.network.outcomes = s.network.outcomes := by
  cases rest <;> rfl

theorem Close.subsides (s : Client) (c : Close) : s.Subsides (c.step s).state := by
  cases hc : c.point with
  | marking =>
    simp only [Close.step, hc]
    split <;> exact .of_eq rfl
  | taking list =>
    simp only [Close.step, hc]
    exact .of_eq (Close.outcomes_goOn ..)
  | entering position ticket rest tally =>
    simp only [Close.step, hc]
    split
    · exact .of_eq (Close.outcomes_goOn ..)
    · next link _ =>
      have hemptied : s.Subsides (s.emptied c.receiver position) := .of_eq rfl
      exact hemptied.trans (Client.subsides_ask (r := .disposeLink link) rfl)
  | disposing position ticket problem rest tally =>
    simp only [Close.step, hc]
    exact .of_eq (Close.outcomes_goOn ..)

theorem Call.subsides (now : Nat) (s : Client) (c : Call) : s.Subsides (c.step now s).state := by
  cases c with
  | sending c => exact c.subsides s
  | opening c => exact c.subsides s
  | receiving c => exact c.subsides now s
  | settling c => exact c.subsides s
  | closing c => exact c.subsides s

/-! ## Ids -/

/-- An id that the bus takes: not empty, and not too long. -/
def IdFits (id : String) : Prop :=
  0 < (Text.Utf8.bytesOf id).length ∧ (Text.Utf8.bytesOf id).length ≤ maxIdBytes

instance (id : String) : Decidable (IdFits id) := inferInstanceAs (Decidable (_ ∧ _))

theorem idProblem_eq_none_iff (id : String) : idProblem id = none ↔ IdFits id := by
  simp only [idProblem, IdFits]
  split
  · exact iff_of_false nofun (by omega)
  · split
    · exact iff_of_false nofun (by omega)
    · exact iff_of_true rfl (by omega)

/-- What the bus says to the id that is given, if one is. -/
def idVerdict : Option String → Except BusError Unit
  | none => .ok ()
  | some id =>
    match idProblem id with
    | some problem => .error (.sendFailed s!"invalid message id: {problem}")
    | none => .ok ()

theorem idVerdict_eq_ok_iff (given : Option String) :
    idVerdict given = .ok () ↔ ∀ id, given = some id → IdFits id := by
  cases given with
  | none => exact iff_of_true rfl nofun
  | some id =>
    have hone : (∀ i, some id = some i → IdFits i) ↔ IdFits id :=
      ⟨fun h => h id rfl, fun h i hi => Option.some.inj hi ▸ h⟩
    rw [hone, ← idProblem_eq_none_iff, idVerdict]
    split
    · next h => exact iff_of_false nofun (by rw [h]; nofun)
    · next h => exact iff_of_true rfl h

theorem sendFailed_of_idVerdict {given : Option String} {e : BusError}
    (h : idVerdict given = .error e) : ∃ detail, e = .sendFailed detail := by
  cases given with
  | none => cases h
  | some id =>
    simp only [idVerdict] at h
    split at h
    · cases h
      exact ⟨_, rfl⟩
    · cases h

theorem map_messageId (supply : Identifier.Supply) (used : Nat) (given : Option String) :
    (messageId supply used given).map (fun _ => ()) = idVerdict given := by
  cases given with
  | none => rfl
  | some id =>
    simp only [messageId, idVerdict]
    cases idProblem id <;> rfl

theorem Outgoing.map_build (supply : Identifier.Supply) (used : Nat) (body : List UInt8)
    (options : SendOptions) :
    (Outgoing.build supply used body options).map (fun _ => ()) = idVerdict options.messageId := by
  rw [← map_messageId supply used, Outgoing.build]
  cases messageId supply used options.messageId <;> rfl

/-- Behind the first message no id is given. -/
theorem Outgoing.exists_buildFrom_succ (supply : Identifier.Supply) (index used : Nat)
    (bodies : List (List UInt8)) (options : SendOptions) :
    ∃ ms used', Outgoing.buildFrom supply (index + 1) used bodies options = .ok (ms, used') := by
  induction bodies generalizing index used with
  | nil => exact ⟨[], used, rfl⟩
  | cons body rest ih =>
    obtain ⟨ms, used', hms⟩ := ih (index + 1) (used + 1)
    rw [Outgoing.buildFrom, if_neg (Nat.succ_ne_zero index)]
    simp only [Outgoing.build, messageId, hms]
    exact ⟨_, _, rfl⟩

/-- What the bus says to the ids of a batch; without messages there are none. -/
def batchVerdict (bodies : List (List UInt8)) (options : SendOptions) : Except BusError Unit :=
  if bodies.isEmpty then .ok () else idVerdict options.messageId

theorem Outgoing.buildBatch_cases (supply : Identifier.Supply) (used : Nat)
    (bodies : List (List UInt8)) (options : SendOptions) :
    (∃ ms used', Outgoing.buildBatch supply used bodies options = .ok (ms, used') ∧
      batchVerdict bodies options = .ok ()) ∨
    ∃ e, Outgoing.buildBatch supply used bodies options = .error e ∧
      batchVerdict bodies options = .error e := by
  cases bodies with
  | nil => exact .inl ⟨[], used, rfl, rfl⟩
  | cons body rest =>
    have hfirst := Outgoing.map_build supply used body options
    rw [Outgoing.buildBatch, Outgoing.buildFrom, if_pos rfl, batchVerdict, List.isEmpty_cons,
      if_neg Bool.false_ne_true, ← hfirst]
    cases Outgoing.build supply used body options with
    | error e => exact .inr ⟨e, rfl, rfl⟩
    | ok x =>
      obtain ⟨m, used'⟩ := x
      obtain ⟨ms, used', hms⟩ := Outgoing.exists_buildFrom_succ supply 0 used' rest options
      refine .inl ⟨m :: ms, used', ?_, rfl⟩
      simp only [hms]

/-! ## Verdicts -/

/-- How a send is going to end if the other side obliges. -/
def Send.verdict : Send → Except BusError Unit
  | .buildingOne _ _ options => idVerdict options.messageId
  | .buildingBatch _ bodies options => batchVerdict bodies options
  | .creating .. | .sending .. => .ok ()
  | .disposing _ result => result.map fun _ => ()

/-- How something that is sent ends if the other side obliges. -/
def Entry.sendVerdict? : Entry → Option (Except BusError Unit)
  | ⟨_, .on (.sending c)⟩ => some c.verdict
  | ⟨_, .done (.sent result)⟩ => some (result.map fun _ => ())
  | _ => none

/-- No step changes how a send is going to end. -/
theorem Send.verdict_step {s : Client} (h : s.network.Obliges) (c : Send) (q : Demand) :
    (Entry.mk q ((c.step s).progress.map .sending .sent)).sendVerdict? = some c.verdict := by
  have hask (r : Request) (hr : r.sends = true) : ∃ t, s.ask r = (none, t) :=
    ⟨_, Prod.ext (Network.ask_of_obliges h hr) rfl⟩
  cases c with
  | buildingOne target body options =>
    have hbuild := Outgoing.map_build s.supply s.issued body options
    simp only [Send.step, Send.verdict, ← hbuild]
    cases Outgoing.build s.supply s.issued body options <;> rfl
  | buildingBatch target bodies options =>
    simp only [Send.step, Send.verdict]
    obtain ⟨ms, used', hb, hv⟩ | ⟨e, hb, hv⟩ :=
      Outgoing.buildBatch_cases s.supply s.issued bodies options
    · rw [hb, hv]
      cases ms <;> rfl
    · rw [hb, hv]
      rfl
  | creating target messages receipt ticket =>
    obtain ⟨t, ht⟩ := hask (.createSender target) rfl
    simp only [Send.step, ht]
    rfl
  | sending target messages receipt =>
    have hrequest : (Send.request target messages).sends = true := by
      rw [Send.request]
      split <;> rfl
    obtain ⟨t, ht⟩ := hask _ hrequest
    simp only [Send.step, ht]
    rfl
  | disposing target result => rfl

/-! ## Runs -/

namespace Traffic

/-- One traffic leads to another while the other side obliges. -/
inductive LeadsObliged : Traffic → Traffic → Prop where
  | refl {s : Traffic} (h : s.client.network.Obliges) : LeadsObliged s s
  | step {s t u : Traffic} {m : Move} : LeadsObliged s t → t.after m = some u →
    u.client.network.Obliges → LeadsObliged s u

variable {s t u : Traffic}

theorem LeadsObliged.leads (h : s.LeadsObliged t) : s.Leads t := by
  induction h with
  | refl => exact .refl _
  | step _ hm _ ih => exact ih.step hm

theorem LeadsObliged.trans (h : s.LeadsObliged t) (k : t.LeadsObliged u) : s.LeadsObliged u := by
  induction k with
  | refl => exact h
  | step _ hm ho ih => exact ih.step hm ho

theorem LeadsObliged.obliges (h : s.LeadsObliged t) : t.client.network.Obliges := by
  cases h with
  | refl h => exact h
  | step _ _ h => exact h

/-- How a send ends is known from the start. -/
theorem LeadsObliged.sendVerdict (h : s.LeadsObliged t) {i : Nat} {x : Entry}
    (hi : s.calls[i]? = some x) {v : Except BusError Unit} (hx : x.sendVerdict? = some v) :
    ∃ y, t.calls[i]? = some y ∧ y.sendVerdict? = some v := by
  induction h with
  | refl => exact ⟨x, hi, hx⟩
  | @step t u m ht hm _ ih =>
    obtain ⟨y, hy, hv⟩ := ih
    cases turn_of_after hm with
    | accepts q hr =>
      obtain ⟨hlt, -⟩ := List.getElem?_eq_some_iff.mp hy
      exact ⟨y, (List.getElem?_append_left hlt).trans hy, hv⟩
    | advances j q c hj hr ho =>
      by_cases hji : j = i
      · subst hji
        obtain ⟨hlt, -⟩ := List.getElem?_eq_some_iff.mp hj
        rw [hj] at hy
        cases hy
        refine ⟨_, List.getElem?_set_self hlt, ?_⟩
        cases c with
        | sending c => exact (Send.verdict_step ht.obliges c q).trans hv
        | _ => contradiction
      · exact ⟨y, (List.getElem?_set_ne hji).trans hy, hv⟩
    | cutsShort j q c o hj ho =>
      by_cases hji : j = i
      · subst hji
        rw [hj] at hy
        cases hy
        contradiction
      · exact ⟨y, (List.getElem?_set_ne hji).trans hy, hv⟩
    | arranges | waits => exact ⟨y, hy, hv⟩

theorem subsides_of_advance {i : Nat} (h : s.after (.advance i) = some t) :
    s.client.Subsides t.client := by
  cases does_of_after h with
  | advances i q c hi hr ho => exact c.subsides s.now s.client
  | overflows i q c hi ho =>
    refine .of_eq ?_
    change (c.drop s.client).network.outcomes = s.client.network.outcomes
    rw [Receive.drop]
    cases c.point <;> rfl

/-- Calls that go on use outcomes up, and arrange none. -/
theorem GoesOn.leadsObliged (h : s.GoesOn t) (hs : s.client.network.Obliges) :
    s.LeadsObliged t := by
  have hgoes {r : Traffic} (hr : r.LeadsObliged s) : r.LeadsObliged t := by
    induction h with
    | refl => exact hr
    | @step s t u ms i hm _ ih =>
      have hwait : r.LeadsObliged (s.pass ms) := hr.step (m := .wait ms) rfl hs
      have ho : t.client.network.Obliges := (subsides_of_advance hm).obliges hs
      exact ih ho (hwait.step hm ho)
  exact hgoes (.refl hs)

/-- What is sent can be brought to its end. -/
theorem Reachable.exists_done_of_sendVerdict (h : s.Reachable) (hs : s.client.network.Obliges)
    {i : Nat} {x : Entry} (hi : s.calls[i]? = some x) {v : Except BusError Unit}
    (hx : x.sendVerdict? = some v) :
    ∃ t q o, s.LeadsObliged t ∧ t.calls[i]? = some ⟨q, .done o⟩ := by
  obtain ⟨t, ht, hrest⟩ := h.comesToRest
  have hlead := ht.leadsObliged hs
  obtain ⟨⟨q, p⟩, hy, -⟩ := hlead.sendVerdict hi hx
  obtain ⟨o, rfl⟩ := hrest _ (List.mem_of_getElem? hy)
  exact ⟨t, q, o, hlead, hy⟩

end Traffic

end PeekLock.Remote
