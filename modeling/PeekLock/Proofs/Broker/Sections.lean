import PeekLock.Broker.Traffic

/-!
# PeekLock.Proofs.Broker.Sections

What the sections of the in-memory bus do to its queues and locks.

For each section there is one equation for the queue of any entity, and
one for the locks.  What a section leaves alone is said by an equation
too: the bus afterwards is the bus before with new values in the fields
that the section writes.
-/

namespace PeekLock.Broker

/-! ## Sending -/

theorem queue_append (m : Message) (b : Broker) (key e : String) :
    (append m b key).queue e = b.queue e ++ if e = key then [⟨b.copies, m⟩] else [] := by
  simp only [append, queue, Table.getD_put]
  split
  · next h => rw [h]
  · rw [List.append_nil]

/-- Sending writes queues and counts copies, nothing else. -/
theorem foldl_append_frame (m : Message) (b : Broker) (entities : List String) :
    entities.foldl (append m) b =
      { b with
        queues := (entities.foldl (append m) b).queues
        copies := b.copies + entities.length } := by
  induction entities generalizing b with
  | nil => rfl
  | cons key rest ih =>
    rw [List.foldl_cons, ih (append m b key)]
    simp only [append, List.length_cons, Nat.add_assoc, Nat.add_comm 1]

/-- The copies of a message that lie in the queue of an entity. -/
def copiesIn (e : String) (copies : List (String × Copy)) : List Copy :=
  (copies.filter (·.1 = e)).map (·.2)

@[simp] theorem copiesIn_nil (e : String) : copiesIn e [] = [] := rfl

theorem queue_foldl_append (m : Message) (b : Broker) (entities : List String) (e : String) :
    (entities.foldl (append m) b).queue e =
      b.queue e ++ copiesIn e (copiesFor m b.copies entities) := by
  induction entities generalizing b with
  | nil => rw [List.foldl_nil, copiesFor, copiesIn_nil, List.append_nil]
  | cons key rest ih =>
    have hc : (append m b key).copies = b.copies + 1 := rfl
    rw [List.foldl_cons, ih, queue_append, hc, copiesFor, List.append_assoc]
    congr 1
    by_cases he : e = key
    · simp [copiesIn, he]
    · simp [copiesIn, he, Ne.symm he]

/-- A message is put at the end of the queue of each of its destinations. -/
theorem queue_enqueue (b : Broker) (target : String) (m : Message) (e : String) :
    (b.enqueue target m).queue e =
      b.queue e ++ copiesIn e (copiesFor m b.copies (b.destinations target)) :=
  queue_foldl_append m b _ e

theorem enqueue_frame (b : Broker) (target : String) (m : Message) :
    b.enqueue target m =
      { b with
        queues := (b.enqueue target m).queues
        copies := b.copies + (b.destinations target).length } :=
  foldl_append_frame m b _

theorem length_copiesFor (m : Message) (n : Nat) (entities : List String) :
    (copiesFor m n entities).length = entities.length := by
  induction entities generalizing n with
  | nil => rfl
  | cons key rest ih => rw [copiesFor, List.length_cons, List.length_cons, ih]

/-- The copies of a message are numbered one after the other. -/
theorem map_serial_copiesFor (m : Message) (n : Nat) (entities : List String) :
    (copiesFor m n entities).map (·.2.serial) = List.range' n entities.length := by
  induction entities generalizing n with
  | nil => rfl
  | cons key rest ih => rw [copiesFor, List.map_cons, ih, List.length_cons, List.range'_succ]

/-! ## Receiving -/

theorem queue_take (b : Broker) (r : Receiver) (most : Nat) (e : String) :
    (b.take r most).2.queue e = if e = r.entity then (b.queue e).drop most else b.queue e := by
  simp only [take, queue, Table.getD_put]
  split
  · next h => rw [h]
  · rfl

theorem locks_take (b : Broker) (r : Receiver) (most : Nat) :
    (b.take r most).2.locks =
      b.locks ++ lockAll b.supply r b.issued ((b.queue r.entity).take most) := rfl

/-- The tokens of new locks are drawn from the supply one after the other. -/
theorem map_token_lockAll (supply : Identifier.Supply) (r : Receiver) (n : Nat)
    (copies : List Copy) : (lockAll supply r n copies).map (·.token) =
      (List.range' n copies.length).map fun k => ⟨supply.nth k⟩ := by
  induction copies generalizing n with
  | nil => rfl
  | cons c rest ih =>
    rw [lockAll, List.map_cons, ih, List.length_cons, List.range'_succ, List.map_cons]

theorem length_lockAll (supply : Identifier.Supply) (r : Receiver) (n : Nat)
    (copies : List Copy) : (lockAll supply r n copies).length = copies.length := by
  have h := congrArg List.length (map_token_lockAll supply r n copies)
  rwa [List.length_map, List.length_map, List.length_range'] at h

/-- Every new lock is on one of the copies, as it is handed out. -/
theorem mem_lockAll {supply : Identifier.Supply} {r : Receiver} {n : Nat} {copies : List Copy}
    {l : Lock} (h : l ∈ lockAll supply r n copies) :
    l.receiver = r.id ∧ l.entity = r.entity ∧ ∃ c ∈ copies, l.copy = c.handOut l.token := by
  induction copies generalizing n with
  | nil => rw [lockAll] at h; contradiction
  | cons c rest ih =>
    rw [lockAll, List.mem_cons] at h
    obtain rfl | h := h
    · exact ⟨rfl, rfl, c, List.mem_cons_self, rfl⟩
    · obtain ⟨hr, he, d, hd, hl⟩ := ih h
      exact ⟨hr, he, d, List.mem_cons_of_mem c hd, hl⟩

/-! ## Looking up locks -/

/-- The lock that a receiver holds under a token is there, and it is that one. -/
theorem mem_of_lock? {b : Broker} {r : Receiver} {token : LockToken} {l : Lock}
    (h : b.lock? r token = some l) : l ∈ b.locks ∧ l.token = token ∧ l.receiver = r.id := by
  have hp := List.find?_some h
  simp only [Bool.and_eq_true, decide_eq_true_eq] at hp
  exact ⟨List.mem_of_find?_eq_some h, hp⟩

theorem lock?_eq_none_iff {b : Broker} {r : Receiver} {token : LockToken} :
    b.lock? r token = none ↔ ∀ l ∈ b.locks, l.token = token → l.receiver ≠ r.id := by
  simp [lock?]

/-! ## Giving back -/

theorem queue_giveBack (b : Broker) (l : Lock) (e : String) :
    (b.giveBack l).queue e = (if e = l.entity then [l.copy] else []) ++ b.queue e := by
  simp only [giveBack, queue, Table.getD_put]
  split
  · next h => rw [h]; rfl
  · rw [List.nil_append]

theorem queue_recordAbandoned (b : Broker) (l : Lock) (e : String) :
    (b.recordAbandoned l).queue e = (if e = l.entity then [l.copy] else []) ++ b.queue e :=
  queue_giveBack { b with abandoned := b.abandoned ++ [l.copy] } l e

/-- Giving back writes queues, nothing else. -/
theorem foldl_giveBack_frame (b : Broker) (locks : List Lock) :
    locks.foldl giveBack b = { b with queues := (locks.foldl giveBack b).queues } := by
  induction locks generalizing b with
  | nil => rfl
  | cons l rest ih =>
    rw [List.foldl_cons, ih (b.giveBack l)]
    rfl

/-- The copies of an entity that some locks are on. -/
def copiesOf (e : String) (locks : List Lock) : List Copy :=
  (locks.filter (·.entity = e)).map (·.copy)

theorem queue_foldl_giveBack (b : Broker) (locks : List Lock) (e : String) :
    (locks.foldl giveBack b).queue e = (copiesOf e locks).reverse ++ b.queue e := by
  induction locks generalizing b with
  | nil => rfl
  | cons l rest ih =>
    rw [List.foldl_cons, ih, queue_giveBack, ← List.append_assoc]
    congr 1
    by_cases he : e = l.entity
    · simp [copiesOf, he]
    · simp [copiesOf, he, Ne.symm he]

/-- The locks of a receiver. -/
def owned (b : Broker) (r : Receiver) : List Lock := b.locks.filter (·.receiver = r.id)

theorem lapse_eq (b : Broker) (r : Receiver) :
    b.lapse r =
      { b with
        queues := (b.lapse r).queues
        locks := b.locks.filter (·.receiver ≠ r.id)
        closedReceivers := b.closedReceivers + 1 } := by
  unfold lapse
  rw [List.partition_eq_filter_filter]
  dsimp only
  rw [foldl_giveBack_frame]
  simp only [Function.comp_def, decide_not]

/-- When the locks of a receiver lapse, their copies go to the front of their
queues. -/
theorem queue_lapse (b : Broker) (r : Receiver) (e : String) :
    (b.lapse r).queue e = (copiesOf e (b.owned r)).reverse ++ b.queue e := by
  unfold lapse
  rw [List.partition_eq_filter_filter]
  exact queue_foldl_giveBack _ (b.owned r) e

end PeekLock.Broker
