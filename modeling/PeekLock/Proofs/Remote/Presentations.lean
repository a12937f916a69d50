import PeekLock.Proofs.Remote.Books
import PeekLock.Proofs.Remote.Demands

/-!
# PeekLock.Proofs.Remote.Presentations

What becomes of a token that is presented.

A settlement asks for nothing until its lane knows the message; then it
asks once, and ends with the answer.  If it asks for nothing, the lock is
lost or the receiver is closed.
-/

namespace PeekLock.Remote

/-- Whether a settlement waits for the answer of its link. -/
def Settle.Point.isAsking : Settle.Point → Bool
  | .asking .. => true
  | _ => false

/-- Whether a settlement was asked for because that token was presented so. -/
structure Asking.Answers (a : Asking) (r : Nat) (token : LockToken) (v : Verdict) : Prop where
  verdict : a.verdict = v
  receiver : a.subject.receiver = r
  token : a.subject.token = token

/-- What a step asks for. -/
theorem Call.asking?_eq_some {s : Client} {c : Call} {i : Nat} {a : Asking}
    (h : c.asking? s i = some a) :
    a.call = i ∧ ∃ k : Settle, c = .settling k ∧ a.Answers k.receiver k.token k.verdict := by
  cases c with
  | settling k =>
    simp only [Call.asking?] at h
    split at h
    · split at h
      · cases h
        exact ⟨rfl, k, rfl, rfl, rfl, rfl⟩
      · contradiction
    · contradiction
  | _ => contradiction

namespace Traffic

/-- What a call has asked links for. -/
def askingsBy (s : Traffic) (i : Nat) : List Asking := s.askings.filter (·.call = i)

/-- How far the presentation of a token has come, and what it has asked for. -/
inductive Presented (s : Traffic) (i r : Nat) (token : LockToken) (v : Verdict) :
    Progress Call Outcome → Prop where
  | comes (c : Settle) (hc : c.point.isAsking = false) (hn : s.askingsBy i = []) :
    Presented s i r token v (.on (.settling c))
  | asks (c : Settle) (position ticket : Nat) (a : Asking)
    (hc : c.point = .asking position ticket a.problem) (hn : s.askingsBy i = [a])
    (ha : a.Answers r token v) :
    Presented s i r token v (.on (.settling c))
  | answered (a : Asking) (hn : s.askingsBy i = [a]) (ha : a.Answers r token v) :
    Presented s i r token v (.done (.settled (Settle.answer v a.problem)))
  | lost (hn : s.askingsBy i = []) :
    Presented s i r token v (.done (.settled (.error (.lockLost token.text))))
  | refused (hn : s.askingsBy i = []) (hc : (s.client.receiver r).closed = true) :
    Presented s i r token v (.done (.settled (.error .receiverClosed)))

/-- Every settlement that a link was asked for goes back to the presentation of a token. -/
structure Answerable (s : Traffic) : Prop where
  presented : ∀ i r token v p, s.calls[i]? = some ⟨.settle r token v, p⟩ →
    s.Presented i r token v p
  asked : ∀ a ∈ s.askings, ∃ r token v p, a.Answers r token v ∧
    s.calls[a.call]? = some ⟨.settle r token v, p⟩

variable {s t : Traffic}

theorem answerable_start (supply : Identifier.Supply) (print : Amqp.Value → String) :
    (start supply print).Answerable :=
  ⟨fun i _ _ _ _ hi => (calls_start i _ hi).elim, fun _ ha => (List.not_mem_nil ha).elim⟩

/-- What stays for a presentation when its call does not move. -/
theorem Presented.of_frame {i r : Nat} {token : LockToken} {v : Verdict}
    {p : Progress Call Outcome} (h : s.Presented i r token v p)
    (ha : t.askingsBy i = s.askingsBy i)
    (hc : (s.client.receiver r).closed = true → (t.client.receiver r).closed = true) :
    t.Presented i r token v p := by
  cases h with
  | comes c hp hn => exact .comes c hp (ha.trans hn)
  | asks c position ticket a hp hn hv => exact .asks c position ticket a hp (ha.trans hn) hv
  | answered a hn hv => exact .answered a (ha.trans hn) hv
  | lost hn => exact .lost (ha.trans hn)
  | refused hn ho => exact .refused (ha.trans hn) (hc ho)

/-- A presentation that asks for nothing yet. -/
theorem Presented.askingsBy_eq_nil {i r : Nat} {token : LockToken} {v : Verdict} {c : Settle}
    (h : s.Presented i r token v (.on (.settling c))) (hc : c.point.isAsking = false) :
    s.askingsBy i = [] := by
  cases h with
  | comes c hp hn => exact hn
  | asks c position ticket a hp =>
    rw [hp] at hc
    contradiction

/-- The step of a settlement. -/
theorem Presented.advance (h : s.Answerable) (hs : s.Sound) {i r : Nat} {token : LockToken}
    {v : Verdict} {c : Settle}
    (hi : s.calls[i]? = some ⟨.settle r token v, .on (.settling c)⟩)
    (hq : c.receiver = r ∧ c.token = token ∧ c.verdict = v) :
    (s.advance i (.settle r token v) (.settling c)).Presented i r token v
      (Call.step s.now s.client (.settling c)).progress := by
  obtain ⟨hr, ht, hv⟩ := hq
  have hbefore := h.presented i r token v _ hi
  have hdeed := Call.deed s.now (hs.fits i _ _ hi).known
  have hgrows := hdeed.grows rfl
  have hby : (s.advance i (.settle r token v) (.settling c)).askingsBy i =
      s.askingsBy i ++ ((Call.settling c).asking? s.client i).toList.filter (·.call = i) :=
    List.filter_append ..
  have hquiet (hn : (Call.settling c).asking? s.client i = none)
      (hc : c.point.isAsking = false) :
      (s.advance i (.settle r token v) (.settling c)).askingsBy i = [] := by
    rw [hby, hn, hbefore.askingsBy_eq_nil hc]
    rfl
  generalize (Call.step s.now s.client (.settling c)).progress = p at hdeed ⊢
  generalize (Call.step s.now s.client (.settling c)).state.receivers = sets at hdeed
  cases hdeed with
  | loses c hc =>
    have hnone := Call.asking?_of_loses hc i
    rw [ht]
    exact .lost (hquiet hnone (by cases hc <;> simp only [Settle.Point.isAsking, *]))
  | refuses c hc ho =>
    exact .refused (hquiet (by simp only [Call.asking?, hc]) (hc ▸ rfl)) (hgrows.closed r (hr ▸ ho))
  | looksUp c number list hc =>
    exact .comes _ rfl (hquiet (by simp only [Call.asking?, hc]) (hc ▸ rfl))
  | finds c number list position ticket hc =>
    exact .comes _ rfl (hquiet (by simp only [Call.asking?, hc]) (hc ▸ rfl))
  | asks c position ticket link m hc hm hl problem hp =>
    rw [Call.asking?_entering hc hm hl, hbefore.askingsBy_eq_nil (hc ▸ rfl)] at hby
    rw [← hp] at hby
    refine .asks _ position ticket ⟨i, c.verdict, problem, ⟨c.receiver, link, c.token, m⟩⟩
      rfl ?_ ⟨hv, hr, ht⟩
    rw [hby, List.nil_append, Option.toList_some, List.filter_cons_of_pos (by simp),
      List.filter_nil]
  | misses c position ticket m hc hm hl =>
    exact ((hs.client.lane c.receiver position).link_of_message? hm hl).elim
  | settles c position ticket problem hc =>
    cases hbefore with
    | comes _ hp =>
      rw [hc] at hp
      contradiction
    | asks _ position' ticket' a hp hn ha =>
      rw [hc] at hp
      cases hp
      rw [hv]
      refine .answered a ?_ ha
      rw [hby, hn]
      simp only [Call.asking?, hc, Option.toList_none, List.filter_nil, List.append_nil]

theorem Answerable.advance (h : s.Answerable) (hs : s.Sound) (hd : s.Demanded) {i : Nat}
    {q : Demand} {c : Call} (hi : s.calls[i]? = some ⟨q, .on c⟩) :
    (s.advance i q c).Answerable := by
  have hmatter : c.matter = q.matter := hd.calls i _ hi
  have hgrows := (c.deed s.now (hs.fits i _ _ hi).known).grows rfl
  refine ⟨fun j r token v p hj => ?_, fun a ha => ?_⟩
  · obtain ⟨hij, hj⟩ | ⟨rfl, hx⟩ := entry_of_set hj
    · refine (h.presented j r token v p hj).of_frame ?_ (hgrows.closed r)
      have hnone : (c.asking? s.client i).toList.filter (·.call = j) = [] := by
        refine List.filter_eq_nil_iff.mpr fun a ha => ?_
        have hcall := (Call.asking?_eq_some (Option.mem_toList.mp ha)).1
        simpa [hcall] using hij
      change (s.askings ++ _).filter _ = _
      rw [List.filter_append, hnone, List.append_nil]
      rfl
    · injection hx with hq hp
      subst hq hp
      obtain ⟨k, rfl, hk⟩ := Call.eq_settling hmatter
      exact .advance h hs hi hk
  · have hkept {r : Nat} {token : LockToken} {v : Verdict} {p : Progress Call Outcome}
        (hc : s.calls[a.call]? = some ⟨.settle r token v, p⟩) :
        ∃ p', (s.calls.set i ⟨q, (c.step s.now s.client).progress⟩)[a.call]? =
          some ⟨.settle r token v, p'⟩ := by
      by_cases hij : i = a.call
      · rw [← hij, hi] at hc
        cases hc
        obtain ⟨hlt, -⟩ := List.getElem?_eq_some_iff.mp hi
        exact ⟨_, by rw [← hij, List.getElem?_set_self hlt]⟩
      · exact ⟨p, by rw [List.getElem?_set_ne hij, hc]⟩
    obtain ha | ha := List.mem_append.mp ha
    · obtain ⟨r, token, v, p, hv, hc⟩ := h.asked a ha
      obtain ⟨p', hp⟩ := hkept hc
      exact ⟨r, token, v, p', hv, hp⟩
    · obtain ⟨hcall, k, rfl, hv⟩ := Call.asking?_eq_some (Option.mem_toList.mp ha)
      have hq := Demand.eq_settle hmatter
      rw [hq, ← hcall] at hi
      obtain ⟨p', hp⟩ := hkept hi
      exact ⟨_, _, _, p', hv, hp⟩

theorem Answerable.turn (h : s.Answerable) (hs : s.Sound) (hd : s.Demanded) (ht : Turn s t) :
    t.Answerable := by
  cases ht with
  | accepts q hr =>
    refine ⟨fun j r token v p hj => ?_, fun a ha => ?_⟩
    · obtain hj | ⟨rfl, hx⟩ := entry_of_accept hj
      · exact (h.presented j r token v p hj).of_frame rfl id
      · injection hx with hq hp
        subst hq hp
        refine .comes _ rfl (List.filter_eq_nil_iff.mpr fun a ha => ?_)
        obtain ⟨r, token, v, p, -, hc⟩ := h.asked a ha
        obtain ⟨hlt, -⟩ := List.getElem?_eq_some_iff.mp hc
        simpa using Nat.ne_of_lt hlt
    · obtain ⟨r, token, v, p, hv, hc⟩ := h.asked a ha
      obtain ⟨hlt, -⟩ := List.getElem?_eq_some_iff.mp hc
      exact ⟨r, token, v, p, hv, (List.getElem?_append_left hlt).trans hc⟩
  | advances i q c hi => exact h.advance hs hd hi
  | cutsShort i q c o hi =>
    have hmatter : Matter.receiving c.receiver = q.matter := hd.calls i _ hi
    refine ⟨fun j r token v p hj => ?_, fun a ha => ?_⟩
    · obtain ⟨-, hj⟩ | ⟨rfl, hx⟩ := entry_of_set hj
      · exact (h.presented j r token v p hj).of_frame rfl
          fun hc => Client.receiver_congr (c.receivers_drop s.client) r ▸ hc
      · injection hx with hq hp
        subst hq
        cases hmatter
    · obtain ⟨r, token, v, p, hv, hc⟩ := h.asked a ha
      refine ⟨r, token, v, p, hv, ?_⟩
      change (s.calls.set i _)[a.call]? = _
      rw [List.getElem?_set_ne, hc]
      rintro rfl
      rw [hi] at hc
      cases hc
      cases hmatter
  | arranges =>
    exact ⟨fun j r token v p hj => (h.presented j r token v p hj).of_frame rfl id, h.asked⟩
  | waits => exact ⟨fun j r token v p hj => (h.presented j r token v p hj).of_frame rfl id, h.asked⟩

/-- **Presentations are answerable**, in every traffic that can come about. -/
theorem Reachable.answerable (h : s.Reachable) : s.Answerable :=
  h.invariant answerable_start fun _ _ hl ht ha => ha.turn hl.sound hl.demanded ht

end Traffic

end PeekLock.Remote
