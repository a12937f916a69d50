import PeekLock.Message
import PeekLock.Identifier

/-!
# PeekLock.Proofs.Letters

The messages of a batch, whichever bus they are built for.

A batch is built message by message from a supply of identifiers that other
calls may draw from too.  The first message takes the id that is given, if
there is one; every other takes the next of the supply.  What has been built
so far is told by `Built`, which one more message continues
(`Built.next`), and what a finished batch is by `IsBatch`.
-/

namespace PeekLock

/-- What a message says, with properties of some kind. -/
structure Letter (π : Type) where
  id : String
  body : List UInt8
  contentType : Option String
  properties : π

namespace Letter

variable {π : Type}

/-- What a message says apart from its id. -/
def content (l : Letter π) : List UInt8 × Option String × π := (l.body, l.contentType, l.properties)

end Letter

/-- The id that is given comes first, and the others are drawn from a stretch of the supply,
in its order. -/
def Labelled (supply : Identifier.Supply) (given : Option String) (start stop : Nat)
    (ids : List String) : Prop :=
  ids = [] ∨ ∃ numbers : List Nat, numbers.Pairwise (· < ·) ∧
    (∀ n ∈ numbers, start ≤ n ∧ n < stop) ∧ ids = given.toList ++ numbers.map supply.nth

namespace Labelled

variable {supply : Identifier.Supply} {given : Option String} {start stop stop' : Nat}
  {ids : List String}

theorem mono (h : Labelled supply given start stop ids) (hle : stop ≤ stop') :
    Labelled supply given start stop' ids := by
  refine h.imp_right fun ⟨numbers, hp, hn, hids⟩ => ⟨numbers, hp, fun n hm => ?_, hids⟩
  exact ⟨(hn n hm).1, Nat.lt_of_lt_of_le (hn n hm).2 hle⟩

theorem singleton_given (supply : Identifier.Supply) (id : String) (start stop : Nat) :
    Labelled supply (some id) start stop [id] :=
  .inr ⟨[], .nil, fun _ hn => absurd hn List.not_mem_nil, rfl⟩

/-- Behind the first id, or where none is given, the next of the supply follows. -/
theorem generated (h : Labelled supply given start stop ids) (hle : start ≤ stop)
    (hnone : ids ≠ [] ∨ given = none) :
    Labelled supply given start (stop + 1) (ids ++ [supply.nth stop]) := by
  refine .inr ?_
  obtain rfl | ⟨numbers, hp, hn, hids⟩ := h
  · obtain rfl := hnone.resolve_left fun hne => hne rfl
    refine ⟨[stop], List.pairwise_singleton _ _, fun n hm => ?_, rfl⟩
    rw [List.mem_singleton.mp hm]
    exact ⟨hle, Nat.lt_succ_self _⟩
  · refine ⟨numbers ++ [stop], ?_, fun n hm => ?_, ?_⟩
    · refine List.pairwise_append.mpr ⟨hp, List.pairwise_singleton _ _, fun n hm k hk => ?_⟩
      rw [List.mem_singleton.mp hk]
      exact (hn n hm).2
    · obtain hm | hm := List.mem_append.mp hm
      · exact ⟨(hn n hm).1, Nat.lt_succ_of_lt (hn n hm).2⟩
      · rw [List.mem_singleton.mp hm]
        exact ⟨hle, Nat.lt_succ_self _⟩
    · rw [hids, List.map_append, List.append_assoc]
      rfl

theorem first (h : Labelled supply given start stop ids) {id : String} (hg : given = some id) :
    ∀ i ∈ ids.head?, i = id := by
  subst hg
  intro i hi
  obtain rfl | ⟨numbers, -, -, rfl⟩ := h
  · contradiction
  · exact (Option.some.inj hi).symm

/-- Every id behind the first, and the first if none is given, is of the supply. -/
theorem fresh (h : Labelled supply given start stop ids) {i : Nat} {id : String}
    (hi : ids[i]? = some id) (hnone : 0 < i ∨ given = none) :
    ∃ n, start ≤ n ∧ n < stop ∧ id = supply.nth n := by
  obtain rfl | ⟨numbers, -, hn, rfl⟩ := h
  · contradiction
  · have hle : given.toList.length ≤ i := by
      obtain hpos | rfl := hnone
      · exact Nat.le_trans (by cases given <;> simp) hpos
      · exact Nat.zero_le i
    rw [List.getElem?_append_right hle, List.getElem?_map] at hi
    obtain ⟨n, hget, rfl⟩ := Option.map_eq_some_iff.mp hi
    obtain ⟨hstart, hstop⟩ := hn n (List.mem_of_getElem? hget)
    exact ⟨n, hstart, hstop, rfl⟩

/-- **No two ids of a batch are alike**, unless the one that is given is of the supply. -/
theorem nodup (h : Labelled supply given start stop ids)
    (hnew : ∀ id, given = some id → ∀ n, supply.nth n ≠ id) : ids.Nodup := by
  obtain rfl | ⟨numbers, hp, -, rfl⟩ := h
  · exact List.nodup_nil
  · have hnumbers : (numbers.map supply.nth).Nodup :=
      List.pairwise_map.mpr (hp.imp fun hlt heq => Nat.ne_of_lt hlt (supply.nth_inj heq))
    cases given with
    | none => exact hnumbers
    | some id =>
      refine List.nodup_cons.mpr ⟨fun hm => ?_, hnumbers⟩
      obtain ⟨n, -, hn⟩ := List.mem_map.mp hm
      exact hnew id rfl n hn

end Labelled

/-- The id that a batch gives to its next message. -/
def ownId (given : Option String) {α : Type} (before : List α) : Option String :=
  if before.isEmpty then given else none

/-- What has been built of a batch, with the bodies that are left. -/
structure Built {π : Type} (supply : Identifier.Supply) (bodies : List (List UInt8))
    (options : SendOptions) (properties : π) (start stop : Nat) (letters : List (Letter π))
    (rest : List (List UInt8)) : Prop where
  bodies : letters.map (·.body) ++ rest = bodies
  content : ∀ l ∈ letters, l.contentType = options.contentType ∧ l.properties = properties
  labelled : Labelled supply options.messageId start stop (letters.map (·.id))
  drawn : start ≤ stop

/-- The messages of a batch. -/
structure IsBatch {π : Type} (supply : Identifier.Supply) (bodies : List (List UInt8))
    (options : SendOptions) (properties : π) (start stop : Nat) (letters : List (Letter π)) :
    Prop where
  /-- One for each body, in that order, all with the content type and properties. -/
  content : letters.map Letter.content =
    bodies.map fun body => (body, options.contentType, properties)
  /-- The first has the id that is given. -/
  first : ∀ id, options.messageId = some id → ∀ l ∈ letters.head?, l.id = id
  /-- The others, and the first if none is given, have one that was generated for them. -/
  fresh : ∀ i l, letters[i]? = some l → 0 < i ∨ options.messageId = none →
    ∃ n, start ≤ n ∧ n < stop ∧ l.id = supply.nth n
  /-- So no two have the same. -/
  distinct : (∀ id, options.messageId = some id → ∀ n, supply.nth n ≠ id) →
    (letters.map (·.id)).Nodup

section

variable {π : Type} {supply : Identifier.Supply} {bodies rest : List (List UInt8)}
  {body : List UInt8} {options : SendOptions} {properties : π} {start stop stop' : Nat}
  {letters : List (Letter π)}

theorem Built.nil (supply : Identifier.Supply) (bodies : List (List UInt8)) (options : SendOptions)
    (properties : π) (n : Nat) :
    Built supply bodies options properties n n [] bodies :=
  ⟨rfl, fun _ hl => absurd hl List.not_mem_nil, .inl rfl, Nat.le_refl n⟩

/-- Other calls may draw from the supply. -/
theorem Built.mono (h : Built supply bodies options properties start stop letters rest)
    (hle : stop ≤ stop') : Built supply bodies options properties start stop' letters rest :=
  ⟨h.bodies, h.content, h.labelled.mono hle, Nat.le_trans h.drawn hle⟩

/-- One more message: under the id that is given to it, or under the next of the supply. -/
theorem Built.next (h : Built supply bodies options properties start stop letters (body :: rest))
    {l : Letter π} (hb : l.body = body) (hc : l.contentType = options.contentType)
    (hp : l.properties = properties)
    (hid : ownId options.messageId letters = some l.id ∧ stop' = stop ∨
      ownId options.messageId letters = none ∧ l.id = supply.nth stop ∧ stop' = stop + 1) :
    Built supply bodies options properties start stop' (letters ++ [l]) rest := by
  refine ⟨?_, fun k hk => ?_, ?_, ?_⟩
  · rw [← h.bodies, List.map_append, List.append_assoc, ← hb]
    rfl
  · obtain hk | hk := List.mem_append.mp hk
    · exact h.content k hk
    · rw [List.mem_singleton.mp hk]
      exact ⟨hc, hp⟩
  · rw [List.map_append]
    obtain ⟨hown, rfl⟩ | ⟨hown, hid, rfl⟩ := hid
    · rw [ownId] at hown
      split at hown
      · next hempty =>
        rw [List.isEmpty_iff.mp hempty, hown]
        exact .singleton_given supply l.id start stop'
      · contradiction
    · rw [List.map_singleton, hid]
      refine h.labelled.generated h.drawn ?_
      rw [ownId] at hown
      split at hown
      · exact .inr hown
      · next hne => exact .inl fun hnil => hne (by simpa using hnil)
  · have := h.drawn
    omega

/-- A batch of which everything is built. -/
theorem Built.isBatch (h : Built supply bodies options properties start stop letters []) :
    IsBatch supply bodies options properties start stop letters where
  content := by
    rw [← h.bodies, List.append_nil, List.map_map]
    refine List.map_congr_left fun l hl => ?_
    obtain ⟨hc, hp⟩ := h.content l hl
    rw [Letter.content, hc, hp]
    rfl
  first id hid l hl := by
    refine h.labelled.first hid l.id ?_
    rw [List.head?_map]
    exact Option.mem_map_of_mem _ hl
  fresh i l hi hnone := by
    refine h.labelled.fresh ?_ hnone
    rw [List.getElem?_map, hi]
    rfl
  distinct hnew := h.labelled.nodup hnew

end

end PeekLock
