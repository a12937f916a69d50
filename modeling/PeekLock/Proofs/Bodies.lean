import PeekLock.Proofs.AcceptedSends
import PeekLock.Proofs.Broker.Redeliveries
import PeekLock.Proofs.Json.Nesting
import PeekLock.Proofs.Service.Handling
import PeekLock.Proofs.Service.Preparation
import PeekLock.Proofs.Text.WellFormed
import PeekLock.Service.Handler

/-!
# PeekLock.Proofs.Bodies

What is sent is what is received, texts and data alike.

The bus in memory conveys a message: it accepts the send, makes copies of
what was sent, and hands out nothing else at any delivery, be it the first
one or the hundredth (`Broker.Traffic.Conveyed`).  So what remains to be
seen is what a receiver reads in a body.  A text is read back always
(`texts_survive`), and data if its nesting is within the limit of the
reader (`data_survives`); the handler rejects what is nested deeper.
-/

namespace PeekLock

/-! ## Conveying a message -/

namespace Broker.Traffic

/-- What becomes of a message that is sent to the bus in memory, whatever else is asked of the
bus: `P` is what its receivers see of it. -/
structure Conveyed (s : Traffic) (q : Request) (P : Message → Prop) : Prop where
  /-- The send is accepted. -/
  accepted : s.Answered q (.ok ())
  /-- By the time it is, the message has arrived. -/
  arrives : ∀ t, (s.accept q).Leads t → t.sendAnswer? s.calls.length = some (.ok ()) →
    ∃ a ∈ t.arrivals, a.call = s.calls.length
  /-- Each copy is such a message when it arrives, and at any later time, wherever it is. -/
  kept : ∀ t, (s.accept q).Leads t → ∀ a ∈ t.arrivals, a.call = s.calls.length →
    P a.copy.message ∧ ∀ c, c ∈ t.broker.completed ∨ (∃ e, t.Has e c) →
      c.serial = a.copy.serial → P c.message
  /-- Each delivery of a copy, the first one and any later one, hands such a message to a
  receive. -/
  delivered : ∀ t u m, (s.accept q).Leads t → t.after m = some u → ∀ a ∈ t.arrivals,
    a.call = s.calls.length → ∀ d ∈ t.deliveries m, d.copy.serial = a.copy.serial →
      P d.copy.message ∧ ∃ (i began : Nat) (messages : List Message),
        u.calls[i]? = some ⟨began, .done (.received (.ok messages))⟩ ∧ d.copy.message ∈ messages
  /-- A copy that is at hand can be delivered and abandoned any number of times. -/
  redelivered : ∀ t, (s.accept q).Leads t → ∀ a ∈ t.arrivals, a.call = s.calls.length → ∀ r,
    t.AtHand r a.copy.serial → ∀ k, ∃ u, Redelivered r a.copy.serial P k t u ∧
      u.AtHand r a.copy.serial

variable {s : Traffic} {target : String} {body : List UInt8} {options : SendOptions}
  {P : Message → Prop}

/-- **The bus conveys what is sent to it**: whatever follows from a body and options being in a
message, its receivers see. -/
theorem Reachable.conveyed (hs : s.Reachable) (ht : checkTarget target = .ok ())
    (hP : ∀ m : Message, m.Carries body options → P m) :
    s.Conveyed (.send target body options) P := by
  have hreach {t : Traffic} (hst : (s.accept (.send target body options)).Leads t) :
      t.Reachable :=
    (hs.step (m := .begin (.send target body options)) rfl).leads hst
  have hcarries {t : Traffic} (hst : (s.accept (.send target body options)).Leads t)
      {a : Placement} (ha : a ∈ t.arrivals) (hcall : a.call = s.calls.length) :
      a.copy.message.Carries body options := by
    obtain ⟨y, -, hsending⟩ := hs.sending hst
    exact hsending.carries _ (mem_sentBy.mpr ⟨a, ha, hcall, rfl⟩)
  have hdelivery {t u : Traffic} {m : Move} (hst : (s.accept (.send target body options)).Leads t)
      (hm : t.after m = some u) {a : Placement} (ha : a ∈ t.arrivals)
      (hcall : a.call = s.calls.length) {d : Lock} (hd : d ∈ t.deliveries m)
      (hserial : d.copy.serial = a.copy.serial) : P d.copy.message :=
    hP _ ((hcarries hst ha hcall).of_sameContent
      ((hreach hst).sameContent_of_delivery hm hd ha hserial))
  constructor
  case accepted => exact answered_of_sendVerdict s (congrArg some ht)
  case arrives =>
    intro t hst hanswer
    obtain ⟨⟨began, p⟩, hi, hsending⟩ := hs.sending hst
    rw [sendAnswer?, hi] at hanswer
    generalize hsent : t.sentBy s.calls.length = sent at hsending
    cases hsending with
    | refused e => cases hanswer
    | done id hne h =>
      obtain ⟨m, hm⟩ := List.exists_mem_of_ne_nil _ hne
      obtain ⟨a, ha, hcall, -⟩ := mem_sentBy.mp (hsent ▸ hm)
      exact ⟨a, ha, hcall⟩
    | _ => cases hanswer
  case kept =>
    intro t hst a ha hcall
    refine ⟨hP _ (hcarries hst ha hcall), fun c hc hserial => hP _ ?_⟩
    exact (hcarries hst ha hcall).of_sameContent (((hreach hst).accounts ha).content c hc hserial)
  case delivered =>
    intro t u m hst hm a ha hcall d hd hserial
    exact ⟨hdelivery hst hm ha hcall hd hserial, received_of_mem_deliveries hm hd⟩
  case redelivered =>
    intro t hst a ha hcall r hat k
    refine hat.redelivered (hreach hst) (fun v m u d htv hm hd hserial => ?_) k
    exact hdelivery (hst.trans htv) hm (htv.arrivals_subset ha) hcall hd hserial

end Broker.Traffic

/-- A send of a producer asks that of the bus in memory. -/
def Bus.Send.Asks (c : Bus.Send) (q : Broker.Request) : Prop :=
  ∃ k, c = .memoryOne k ∧ q.call = .sending k

/-- What a producer sends is conveyed. -/
theorem Producer.exists_conveyed {p : Producer} {target : String} {s : Broker.Traffic}
    {body : List UInt8} {options : SendOptions} {P : Message → Prop}
    (hp : Producer.new target = .ok p) (hs : s.Reachable)
    (hP : ∀ m : Message, m.Carries body options → P m) :
    ∃ q, (p.send .memory body options).Asks q ∧ s.Conveyed q P := by
  obtain ⟨htarget, hcheck⟩ := Service.checkTarget_of_new hp
  refine ⟨.send p.target body options, ⟨_, rfl, rfl⟩, hs.conveyed ?_ hP⟩
  rw [htarget]
  exact hcheck

/-! ## Texts -/

theorem Text.Utf8.textOf_bytesOf (text : String) : textOf (bytesOf text) = text := by
  rw [textOf, bytesOf, decodeLossy_encode, String.ofList_toList]

theorem Text.Utf8.bytesOf_textOf (bytes : List UInt8) :
    bytesOf (textOf bytes) = encode (decodeLossy bytes) := by
  rw [bytesOf, textOf, String.toList_ofList]

/-- What the receivers of a text see. -/
structure Message.Says (m : Message) (text : String) : Prop where
  contentType : m.contentType = some "text/plain"
  bodyText : m.bodyText = text

/-- A message with a text in it says that text. -/
theorem Message.Carries.says {m : Message} {text : String}
    (h : m.Carries (Producer.textBody text) Producer.textOptions) : m.Says text where
  contentType := h.contentType
  bodyText := by
    rw [bodyText, h.body]
    exact Text.Utf8.textOf_bytesOf text

/-- What is read in a body is its text, if it has one. -/
theorem Message.bodyText_iff (m : Message) :
    (∃ t, m.bodyText = t ∧ Text.Utf8.bytesOf t = m.body) ↔ Text.Utf8.WellFormed m.body := by
  rw [← Text.Utf8.encode_decodeLossy_iff, ← Text.Utf8.bytesOf_textOf]
  constructor
  · rintro ⟨t, rfl, ht⟩
    exact ht
  · exact fun h => ⟨_, rfl, h⟩

/-- Where it has none, that shows. -/
theorem Message.replacement_mem_bodyText {m : Message} (h : ¬ Text.Utf8.WellFormed m.body) :
    '\uFFFD' ∈ m.bodyText.toList := by
  rw [bodyText, Text.Utf8.textOf, String.toList_ofList]
  exact Text.Utf8.replacement_mem_decodeLossy h

/-- What becomes of texts, and of bodies that are none. -/
structure TextSurvives (s : Broker.Traffic) (p : Producer) (text : String) : Prop where
  /-- The text is conveyed, and seen by every receiver as it was sent. -/
  conveyed : ∃ q, (p.sendText .memory text).Asks q ∧ s.Conveyed q (·.Says text)
  /-- What is read in a body is its text if and only if the body is well-formed. -/
  read_iff : ∀ m : Message, (∃ t, m.bodyText = t ∧ Text.Utf8.bytesOf t = m.body) ↔
    Text.Utf8.WellFormed m.body
  /-- In a body that is not well-formed, something is replaced. -/
  marked : ∀ m : Message, ¬ Text.Utf8.WellFormed m.body → '\uFFFD' ∈ m.bodyText.toList

/-- **Texts survive**: whatever else is asked of the bus, every delivery of a text that was sent
hands out that text; and of all bodies the well-formed ones, and no others, are read as they
are. -/
theorem texts_survive {p : Producer} {target : String} {s : Broker.Traffic}
    (hp : Producer.new target = .ok p) (hs : s.Reachable) (text : String) :
    TextSurvives s p text where
  conveyed := Producer.exists_conveyed hp hs fun _ h => h.says
  read_iff := Message.bodyText_iff
  marked _ := Message.replacement_mem_bodyText

/-- A receiver is created. -/
def openedOrders : List Broker.Move := [.begin (.createReceiver "orders"), .advance 0, .advance 0]

/-- Then a text is sent to its queue. -/
def greetedOrders : List Broker.Move := [
  .begin (.send "orders" (Producer.textBody "Grüße, 世界 🚀") Producer.textOptions),
  .advance 1, .advance 1, .advance 1]

theorem texts_survive_greeting : ∃ s t, Broker.Traffic.run {} openedOrders = some s ∧
    s.run greetedOrders = some t ∧ TextSurvives s ⟨"orders"⟩ "Grüße, 世界 🚀" ∧
    ∃ u, Broker.Traffic.Redelivered ⟨0, "orders"⟩ 0 (·.Says "Grüße, 世界 🚀") 3 t u := by
  have hrun : (Broker.Traffic.run {} openedOrders).any fun s => s.calls.length = 1 ∧
      (s.run greetedOrders).any fun t => ∃ a ∈ t.arrivals, a.call = 1 ∧ a.copy.serial = 0 ∧
        ⟨0, "orders"⟩ ∈ t.receivers ∧ t.broker.isOpen ⟨0, "orders"⟩ = true ∧
        t.broker.faults = {} ∧ ∃ c ∈ t.broker.queue "orders", c.serial = 0 := by
    decide
  obtain ⟨s, hs, hp⟩ := (Option.any_eq_true _ _).mp hrun
  obtain ⟨hlength, hgreeted⟩ := of_decide_eq_true hp
  obtain ⟨t, ht, hq⟩ := (Option.any_eq_true _ _).mp hgreeted
  obtain ⟨a, ha, hcall, hserial, hreceiver, hopen, hfaults, hwaiting⟩ := of_decide_eq_true hq
  have hsurvives : TextSurvives s ⟨"orders"⟩ "Grüße, 世界 🚀" :=
    texts_survive (by rfl : Producer.new "orders" = .ok ⟨"orders"⟩)
      (Broker.Traffic.reachable_of_run hs) _
  obtain ⟨q, ⟨k, hk, hcalls⟩, hconveyed⟩ := hsurvives.conveyed
  have hsame : q.call = Broker.Request.call (.send "orders"
      (Producer.textBody "Grüße, 世界 🚀") Producer.textOptions) := by
    cases hk
    exact hcalls
  have hrest : (s.accept q).run [.advance 1, .advance 1, .advance 1] = some t := by
    rw [Broker.Traffic.accept, hsame]
    exact ht
  have hleads : (s.accept q).Leads t := Broker.Traffic.leads_of_run hrest
  have hat : t.AtHand ⟨0, "orders"⟩ a.copy.serial :=
    ⟨hreceiver, hopen, hfaults, hserial ▸ hwaiting⟩
  obtain ⟨u, hu, -⟩ :=
    hconveyed.redelivered t hleads a ha (hcall.trans hlength.symm) _ hat 3
  rw [hserial] at hu
  exact ⟨s, t, hs, ht, hsurvives, u, hu⟩

/-! ## Data -/

open Service in
/-- What the receivers of data see. -/
structure Message.Holds (m : Message) (v : Json) (options : SendOptions) : Prop where
  contentType : m.contentType = some "application/json"
  properties : m.properties = options.properties
  id : ∀ id, options.messageId = some id → m.id = id
  /-- The data is read back if it is not nested too deep, and otherwise nothing is. -/
  read_iff : Json.read m.body = .ok v ↔ v.depth ≤ 127
  refused_iff : (∃ f, Json.read m.body = .error f) ↔ 127 < v.depth
  /-- The handler rejects the message in the latter case, and accepts it otherwise. -/
  rejected_iff : ∀ c stats, c.message = m →
    ((∃ e, (logMessage c stats).1 = .error e) ↔ 127 < v.depth)

/-- The data in a body is refused exactly if it is nested too deep. -/
theorem Json.exists_error_read_iff {v : Json} (hv : v.IsExact) :
    (∃ f, Json.read v.bytes = .error f) ↔ Reader.maxDepth < v.depth := by
  constructor
  · rintro ⟨f, hf⟩
    refine Nat.lt_of_not_le fun hd => ?_
    exact nomatch hf.symm.trans (read_bytes hv hd)
  · intro hd
    obtain ⟨f, hf, -⟩ := read_tooDeep hv hd
    exact ⟨f, hf⟩

/-- A message with some data in it holds that data. -/
theorem Message.Carries.holds {m : Message} {v : Json} {options : SendOptions} (hv : v.IsExact)
    (h : m.Carries (Text.Utf8.bytesOf v.render) (Producer.jsonOptions options)) :
    m.Holds v options := by
  have hbody : m.body = v.bytes := h.body.trans (Json.bytesOf_render v)
  have hrefused : (∃ f, Json.read m.body = .error f) ↔ 127 < v.depth := by
    rw [hbody]
    exact Json.exists_error_read_iff hv
  refine ⟨h.contentType, h.properties, h.id, ?_, hrefused, ?_⟩
  · rw [hbody]
    exact Json.read_bytes_iff hv
  · rintro c stats rfl
    exact (Service.logMessage_error_iff c stats).trans
      ((and_iff_right h.contentType).trans hrefused)

/-- **Data survives**: whatever else is asked of the bus, every delivery of data that was sent
hands out that data as JSON, with the properties and under the id that were given; it is read
back if and only if its arrays and objects are nested 127 deep at most, and the handler rejects
what is nested deeper. -/
theorem data_survives {p : Producer} {target : String} {s : Broker.Traffic} {v : Json}
    (hp : Producer.new target = .ok p) (hs : s.Reachable) (hv : v.IsExact)
    (options : SendOptions) :
    ∃ c q, p.sendJson .memory (.json v) options = .ok c ∧ c.Asks q ∧
      s.Conveyed q (·.Holds v options) := by
  have hholds (m : Message)
      (h : m.Carries (Text.Utf8.bytesOf v.render) (Producer.jsonOptions options)) :
      m.Holds v options := h.holds hv
  obtain ⟨q, hasks, hconveyed⟩ := Producer.exists_conveyed hp hs hholds
  exact ⟨_, q, rfl, hasks, hconveyed⟩

/-- Arrays, so many of them one in the other. -/
def Json.nested : Nat → Json
  | 0 => .array []
  | n + 1 => .array [nested n]

theorem Json.isExact_nested (n : Nat) : (nested n).IsExact := by
  induction n with
  | zero => exact trivial
  | succ n ih => exact ⟨ih, trivial⟩

theorem Json.depth_nested (n : Nat) : (nested n).depth = n + 1 := by
  induction n with
  | zero => rfl
  | succ n ih =>
    simp only [nested, depth, itemsDepth, ih]
    omega

/-- Data with escapes, with the smallest and the largest integers, and with one more array than
can be read back. -/
def awkward : Json := .object [
  ("\x01\"\\", .array [.int (-9223372036854775808), .nat 9223372036854775808,
    .nat 18446744073709551615]),
  ("deep", Json.nested 126), ("Ключ", .string "\n🚀\u007f")]

theorem data_survives_awkward : awkward.IsExact ∧ awkward.depth = 128 ∧
    ∃ s, Broker.Traffic.run {} openedOrders = some s ∧ ∀ options, ∃ c q,
      Producer.sendJson ⟨"orders"⟩ .memory (.json awkward) options = .ok c ∧ c.Asks q ∧
        s.Conveyed q (·.Holds awkward options) := by
  have hintegers : Json.ItemsExact [.int (-9223372036854775808), .nat 9223372036854775808,
      .nat 18446744073709551615] :=
    ⟨⟨by decide, by decide⟩, ⟨by decide, by decide⟩, ⟨by decide, by decide⟩, trivial⟩
  have hexact : awkward.IsExact :=
    ⟨by decide, hintegers, Json.isExact_nested 126, trivial, trivial⟩
  have hdepth : awkward.depth = 128 := by
    simp only [awkward, Json.depth, Json.fieldsDepth, Json.depth_nested]
    rfl
  obtain ⟨s, hs⟩ := Option.isSome_iff_exists.mp
    (by decide : (Broker.Traffic.run {} openedOrders).isSome = true)
  exact ⟨hexact, hdepth, s, hs, data_survives (by rfl : Producer.new "orders" = .ok ⟨"orders"⟩)
    (Broker.Traffic.reachable_of_run hs) hexact⟩

end PeekLock
