import PeekLock.Proofs.Broker.Conservation
import PeekLock.Proofs.Json.Texts
import PeekLock.Proofs.Service.Supplies

/-!
# PeekLock.Proofs.Service.Handling

What the handler of the service takes.

The handler decides by the content of a message alone, so a message is
taken on every delivery or on none.  A sample claims to be JSON, and it is
the text of its data.
-/

namespace PeekLock.Service

/-- The handler takes a message: it does not claim to be JSON, or it is. -/
def Acceptable (m : Message) : Prop := claimsJson m = true → ∃ v, Json.read m.body = .ok v

/-- What is delivered again is taken or not as before. -/
theorem acceptable_iff {m k : Message} (h : m.SameContent k) : Acceptable m ↔ Acceptable k := by
  rw [Acceptable, Acceptable, claimsJson, claimsJson, h.contentType, h.body]

/-- A message that is acceptable is accepted, and counted as processed. -/
theorem logMessage_of_acceptable {c : MessageContext} (h : Acceptable c.message) (stats : Stats) :
    ∃ logs, logMessage c stats = (.ok (), logs, stats.recordProcessed) := by
  unfold logMessage
  by_cases hj : claimsJson c.message = true
  · obtain ⟨v, hv⟩ := h hj
    simp only [hj, if_true, hv]
    exact ⟨_, rfl⟩
  · simp only [hj]
    exact ⟨_, rfl⟩

/-- A message that is not acceptable is rejected, and counted as failed. -/
theorem logMessage_of_not_acceptable {c : MessageContext} (h : ¬ Acceptable c.message)
    (stats : Stats) : ∃ e, logMessage c stats = (.error e, [], stats.recordFailed) := by
  obtain ⟨hclaims, hread⟩ := Classical.not_imp.mp h
  simp only [logMessage, hclaims, if_true]
  cases hr : Json.read c.message.body with
  | ok v => exact (hread ⟨v, hr⟩).elim
  | error f => exact ⟨_, rfl⟩

/-- The handler rejects a message exactly if it claims to be JSON and is none. -/
theorem logMessage_error_iff (c : MessageContext) (stats : Stats) :
    (∃ e, (logMessage c stats).1 = .error e) ↔
      c.message.contentType = some Producer.jsonContentType ∧
        ∃ f, Json.read c.message.body = .error f := by
  constructor
  · rintro ⟨e, he⟩
    have hnot : ¬ Acceptable c.message := fun h => by
      obtain ⟨logs, hl⟩ := logMessage_of_acceptable h stats
      rw [hl] at he
      cases he
    obtain ⟨hclaims, hread⟩ := Classical.not_imp.mp hnot
    refine ⟨of_decide_eq_true hclaims, ?_⟩
    cases hr : Json.read c.message.body with
    | ok v => exact (hread ⟨v, hr⟩).elim
    | error f => exact ⟨f, rfl⟩
  · rintro ⟨htype, f, hf⟩
    have hnot : ¬ Acceptable c.message := fun h => by
      obtain ⟨v, hv⟩ := h (decide_eq_true htype)
      cases hf.symm.trans hv
    obtain ⟨e, hl⟩ := logMessage_of_not_acceptable hnot stats
    exact ⟨e, congrArg (·.1) hl⟩

/-- The fields of a sample, in their order. -/
theorem sample_eq (time : String) (k : Nat) : sample time k = .object [
    ("content", .string s!"Sample message #{k}"),
    ("sequence", .nat k),
    ("timestamp", .string time)] := by
  have hsequence : ¬ "timestamp" < "sequence" := by decide
  simp only [sample, Json.ofMembers, List.foldl_cons, List.foldl_nil, Json.insertField, hsequence,
    if_false]
  rfl

/-- A sample is read back from its text. -/
theorem read_sampleBody (time : Nat → String) {k : Nat} (hk : k ≤ Decimal.maxU64) :
    Json.read (sampleBody time k) = .ok (sample (time k) k) := by
  rw [sampleBody, Json.bytesOf_render]
  refine Json.read_bytes ?_ ?_
  · rw [sample_eq]
    refine ⟨?_, trivial, ⟨?_, ?_⟩, trivial, trivial⟩
    · have hcontent : "content" < "sequence" ∧ "content" < "timestamp" := by decide
      have hsequence : "sequence" < "timestamp" := by decide
      refine .cons ?_ (.cons ?_ (List.pairwise_singleton _ _))
      · exact List.forall_mem_cons.mpr ⟨hcontent.1, List.forall_mem_singleton.mpr hcontent.2⟩
      · exact List.forall_mem_singleton.mpr hsequence
    · exact Int.le_trans (by decide) (Int.natCast_nonneg k)
    · exact Int.ofNat_le.mpr hk
  · rw [sample_eq]
    exact Nat.le_of_ble_eq_true rfl

/-- **Samples are taken.** -/
theorem acceptable_sampleMessage (supply : Identifier.Supply) (s : Settings)
    (time : Nat → String) {k : Nat} (hk : k ≤ Decimal.maxU64) :
    Acceptable (sampleMessage supply s time k) := by
  intro _
  have hbody : (sampleMessage supply s time k).body = sampleBody time k := by
    rw [sampleMessage]
  rw [hbody]
  exact ⟨_, read_sampleBody time hk⟩

end PeekLock.Service
