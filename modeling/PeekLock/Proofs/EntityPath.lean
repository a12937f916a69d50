import Mathlib.Data.List.Basic
import PeekLock.EntityPath

/-!
# PeekLock.Proofs.EntityPath

Which texts are paths.

A queue is named by a segment: a text that is not empty and holds no slash
and no blank.  Reading accepts a segment as the queue of that name, and a
text of two segments with the marker between them as a subscription; and
what it accepts is written as it was read.

So a path is what its text is read as exactly where all its names are
segments (`parse_eq_ok_iff`), which a path that was put together from other
names need not have; and every other text is refused (`grammar`).
-/

namespace PeekLock.EntityPath

/-- Not empty, without a slash and without a blank. -/
def IsSegment (name : String) : Prop :=
  name ≠ "" ∧ ∀ c ∈ name.toList, c ≠ '/' ∧ Text.isBlank c = false

instance (name : String) : Decidable (IsSegment name) :=
  @instDecidableAnd _ _ _ (List.decidableBAll _ _)

theorem IsSegment.slash_not_mem {name : String} (h : IsSegment name) : '/' ∉ name.toList :=
  fun hm => (h.2 _ hm).1 rfl

/-! ### Pieces -/

theorem segments_cons_slash (rest : List Char) : segments ('/' :: rest) = [] :: segments rest := by
  rw [segments, if_pos rfl]

theorem segments_cons_of_eq {c : Char} {rest s : List Char} {more : List (List Char)} (hc : c ≠ '/')
    (h : segments rest = s :: more) : segments (c :: rest) = (c :: s) :: more := by
  rw [segments, if_neg hc, h]

theorem segments_of_not_mem {cs : List Char} (h : '/' ∉ cs) : segments cs = [cs] := by
  induction cs with
  | nil => rfl
  | cons c rest ih =>
    obtain ⟨hc, hrest⟩ := not_or.mp (mt List.mem_cons.mpr h)
    exact segments_cons_of_eq (Ne.symm hc) (ih hrest)

/-- There is one piece more than there are slashes. -/
theorem length_segments (cs : List Char) : (segments cs).length = cs.count '/' + 1 := by
  induction cs with
  | nil => rfl
  | cons c rest ih =>
    by_cases hc : c = '/'
    · rw [hc, segments_cons_slash, List.length_cons, ih, List.count_cons_self]
    · obtain ⟨s, more, h⟩ : ∃ s more, segments rest = s :: more :=
        List.exists_cons_of_length_pos (by rw [ih]; exact Nat.succ_pos _)
      rw [segments_cons_of_eq hc h, List.count_cons_of_ne hc, ← ih, h]
      rfl

theorem eq_of_segments_eq_singleton {cs name : List Char} (h : segments cs = [name]) :
    '/' ∉ cs ∧ name = cs := by
  have hlength := length_segments cs
  rw [h, List.length_singleton] at hlength
  have hslash : '/' ∉ cs := List.count_eq_zero.mp (by omega)
  rw [segments_of_not_mem hslash] at h
  exact ⟨hslash, (List.singleton_inj.mp h).symm⟩

theorem exists_segments (cs : List Char) : ∃ s more, segments cs = s :: more :=
  List.exists_cons_of_length_pos (by rw [length_segments]; exact Nat.succ_pos _)

/-- The pieces with the slashes between them make up the text. -/
theorem eq_of_segments {cs s : List Char} {more : List (List Char)} (h : segments cs = s :: more) :
    cs = s ++ more.flatMap ('/' :: ·) := by
  induction cs generalizing s more with
  | nil =>
    cases h
    rfl
  | cons c rest ih =>
    obtain ⟨s', more', hrest⟩ := exists_segments rest
    by_cases hc : c = '/'
    · rw [hc, segments_cons_slash, hrest] at h
      cases h
      rw [hc, ih hrest]
      rfl
    · rw [segments_cons_of_eq hc hrest] at h
      cases h
      rw [ih hrest]
      rfl

/-! ### Reading -/

theorem any_isBlank_eq_false_iff {cs : List Char} :
    cs.any Text.isBlank = false ↔ ∀ c ∈ cs, Text.isBlank c = false := by
  rw [List.any_eq_false]
  exact forall₂_congr fun c _ => Bool.eq_false_iff.symm

theorem IsSegment.isEmpty_eq_false {name : String} (h : IsSegment name) :
    name.toList.isEmpty = false := by
  have hne := h.1
  simpa using hne

theorem IsSegment.any_isBlank {name : String} (h : IsSegment name) :
    name.toList.any Text.isBlank = false :=
  any_isBlank_eq_false_iff.mpr fun c hc => (h.2 c hc).2

/-- A queue is read from its name, and only from that. -/
theorem parse_eq_queue_iff {path name : String} :
    parse path = .ok (.queue name) ↔ path = name ∧ IsSegment name := by
  constructor
  · intro h
    simp only [parse] at h
    split at h
    · cases h
    · next hcs =>
      obtain ⟨hne, hblank⟩ : path.toList ≠ [] ∧ path.toList.any Text.isBlank = false := by
        simpa using hcs
      split at h
      · next name' hs =>
        obtain ⟨hslash, rfl⟩ := eq_of_segments_eq_singleton hs
        cases h
        rw [String.ofList_toList]
        refine ⟨rfl, fun he => hne (he ▸ rfl), fun c hc => ⟨fun he => hslash (he ▸ hc), ?_⟩⟩
        exact any_isBlank_eq_false_iff.mp hblank c hc
      · split at h <;> cases h
      · cases h
  · rintro ⟨rfl, hs⟩
    simp only [parse, hs.isEmpty_eq_false, hs.any_isBlank, segments_of_not_mem hs.slash_not_mem,
      String.ofList_toList]
    rfl

/-- What is accepted is written as it was read. -/
theorem text_of_parse {path : String} {p : EntityPath} (h : parse path = .ok p) :
    p.text = path := by
  simp only [parse] at h
  split at h
  · cases h
  · split at h
    · next name hs =>
      cases h
      obtain ⟨-, rfl⟩ := eq_of_segments_eq_singleton hs
      exact String.ofList_toList
    · next topic middle name hs =>
      split at h
      · cases h
      · next hmarker =>
        cases h
        have hmiddle : middle = marker.toList := by
          simp only [Bool.or_eq_true, decide_eq_true_eq, not_or, Decidable.not_not] at hmarker
          exact hmarker.2
        refine String.toList_injective ?_
        rw [eq_of_segments hs, hmiddle]
        simp [text, toString]
    · cases h

/-- The error names the text that is refused. -/
theorem eq_invalidQueueName_of_parse {path : String} {e : BusError} (h : parse path = .error e) :
    e = .invalidQueueName path := by
  simp only [parse] at h
  split at h
  · exact (Except.error.inj h).symm
  · split at h
    · cases h
    · split at h
      · exact (Except.error.inj h).symm
      · cases h
    · exact (Except.error.inj h).symm

/-- What is refused is no name of a queue or a subscription. -/
theorem invalidQueueName_of_parse {path : String} {e : BusError} (h : parse path = .error e) :
    ∃ name, e = .invalidQueueName name :=
  ⟨path, eq_invalidQueueName_of_parse h⟩

/-! ### The grammar -/

/-- All names of a path are segments. -/
def IsProper : EntityPath → Prop
  | .queue name => IsSegment name
  | .subscription topic name => IsSegment topic ∧ IsSegment name

instance : (p : EntityPath) → Decidable p.IsProper
  | .queue name => inferInstanceAs (Decidable (IsSegment name))
  | .subscription topic name => inferInstanceAs (Decidable (IsSegment topic ∧ IsSegment name))

theorem text_subscription_eq (topic name : String) :
    (subscription topic name).text = topic ++ "/subscriptions/" ++ name := by
  apply String.toList_injective
  simp [text, marker, toString]

/-- A slash ends the first piece. -/
theorem segments_append_slash {cs : List Char} (h : '/' ∉ cs) (rest : List Char) :
    segments (cs ++ '/' :: rest) = cs :: segments rest := by
  induction cs with
  | nil => exact segments_cons_slash rest
  | cons c cs ih =>
    have hc : c ≠ '/' := fun he => h (he ▸ List.mem_cons_self)
    have hrest := ih fun hm => h (List.mem_cons_of_mem c hm)
    exact segments_cons_of_eq hc hrest

theorem slash_not_mem_marker : '/' ∉ marker.toList := by decide

theorem toList_subscription (topic name : String) : (subscription topic name).text.toList =
    topic.toList ++ '/' :: (marker.toList ++ '/' :: name.toList) := by
  simp [text, toString]

theorem segments_subscription {topic name : String} (ht : IsSegment topic) (hn : IsSegment name) :
    segments (subscription topic name).text.toList =
      [topic.toList, marker.toList, name.toList] := by
  rw [toList_subscription, segments_append_slash ht.slash_not_mem,
    segments_append_slash slash_not_mem_marker, segments_of_not_mem hn.slash_not_mem]

/-- A subscription of proper names is read from its text. -/
theorem parse_subscription {topic name : String} (ht : IsSegment topic) (hn : IsSegment name) :
    parse (subscription topic name).text = .ok (.subscription topic name) := by
  have hempty : (subscription topic name).text.toList.isEmpty = false := by
    simp [toList_subscription]
  have hmarker : marker.toList.any Text.isBlank = false := by decide
  have hslash : Text.isBlank '/' = false := by decide
  have hblank : (subscription topic name).text.toList.any Text.isBlank = false := by
    simp only [toList_subscription, List.any_append, List.any_cons, ht.any_isBlank,
      hn.any_isBlank, hmarker, hslash, Bool.or_self]
  simp only [parse, hempty, hblank, segments_subscription ht hn, ht.isEmpty_eq_false,
    hn.isEmpty_eq_false, String.ofList_toList]
  rfl

/-- The pieces of a text without blanks have none. -/
theorem isBlank_of_mem_segments {cs s : List Char} (h : ∀ c ∈ cs, Text.isBlank c = false)
    (hs : s ∈ segments cs) : ∀ c ∈ s, c ≠ '/' ∧ Text.isBlank c = false := by
  induction cs generalizing s with
  | nil =>
    obtain rfl : s = [] := by simpa [segments] using hs
    simp
  | cons c cs ih =>
    have hcs : ∀ d ∈ cs, Text.isBlank d = false := fun d hd => h d (List.mem_cons_of_mem c hd)
    by_cases hc : c = '/'
    · rw [hc, segments_cons_slash] at hs
      obtain rfl | hs := List.mem_cons.mp hs
      · simp
      · exact ih hcs hs
    · obtain ⟨first, more, hfirst⟩ := exists_segments cs
      rw [segments_cons_of_eq hc hfirst] at hs
      obtain rfl | hs := List.mem_cons.mp hs
      · intro d hd
        obtain rfl | hd := List.mem_cons.mp hd
        · exact ⟨hc, h d List.mem_cons_self⟩
        · exact ih hcs (hfirst ▸ List.mem_cons_self) d hd
      · exact ih hcs (hfirst ▸ List.mem_cons_of_mem first hs)

/-- What is read as a subscription has proper names. -/
theorem isSegment_of_parse {path topic name : String}
    (h : parse path = .ok (.subscription topic name)) : IsSegment topic ∧ IsSegment name := by
  simp only [parse] at h
  split at h
  · cases h
  · next hcs =>
    have hblank : path.toList.any Text.isBlank = false := by
      simp only [Bool.or_eq_true, not_or, Bool.not_eq_true] at hcs
      exact hcs.2
    have hpieces {s : List Char} (hs : s ∈ segments path.toList) :=
      isBlank_of_mem_segments (any_isBlank_eq_false_iff.mp hblank) hs
    split at h
    · cases h
    · next topic' middle name' hsegments =>
      split at h
      · cases h
      · next hnames =>
        cases h
        simp only [Bool.or_eq_true, not_or, List.isEmpty_iff] at hnames
        rw [hsegments] at hpieces
        have hsegment {s : List Char} (hne : s ≠ [])
            (hs : s ∈ [topic', middle, name']) : IsSegment (String.ofList s) := by
          refine ⟨fun he => hne ?_, ?_⟩
          · simpa using congrArg String.toList he
          · rw [String.toList_ofList]
            exact hpieces hs
        exact ⟨hsegment hnames.1.1 (by simp), hsegment hnames.1.2 (by simp)⟩
    · cases h

/-- A path is read from its text if its names are proper, and from no other text. -/
theorem parse_eq_ok_iff {path : String} {p : EntityPath} :
    parse path = .ok p ↔ p.text = path ∧ p.IsProper := by
  cases p with
  | queue name => rw [parse_eq_queue_iff, eq_comm]; rfl
  | subscription topic name =>
    constructor
    · intro h
      exact ⟨text_of_parse h, isSegment_of_parse h⟩
    · rintro ⟨rfl, ht, hn⟩
      exact parse_subscription ht hn

/-- The texts that are read, and what as. -/
structure Grammar (s : String) : Prop where
  /-- A segment is the queue of that name. -/
  queue : ∀ name, parse s = .ok (.queue name) ↔ IsSegment s ∧ name = s
  /-- Two segments with the marker between them are a subscription. -/
  subscription : ∀ topic name, parse s = .ok (.subscription topic name) ↔
    s = topic ++ "/subscriptions/" ++ name ∧ IsSegment topic ∧ IsSegment name
  /-- Anything else is refused. -/
  refused : ∀ e, parse s = .error e ↔ e = .invalidQueueName s ∧ ¬ IsSegment s ∧
    ¬ ∃ topic name, s = topic ++ "/subscriptions/" ++ name ∧ IsSegment topic ∧ IsSegment name
  /-- What is read is written as that text. -/
  written : ∀ p, parse s = .ok p → p.text = s

/-- **The grammar of paths**: which texts are read, what as, and which paths are read back from
their text — those of proper names, however they were put together. -/
theorem grammar (s : String) (p : EntityPath) :
    Grammar s ∧ (parse p.text = .ok p ↔ p.IsProper) := by
  have hqueue (name : String) : parse s = .ok (.queue name) ↔ IsSegment s ∧ name = s := by
    rw [parse_eq_queue_iff]
    constructor
    · rintro ⟨rfl, h⟩
      exact ⟨h, rfl⟩
    · rintro ⟨h, rfl⟩
      exact ⟨rfl, h⟩
  have hsubscription (topic name : String) : parse s = .ok (.subscription topic name) ↔
      s = topic ++ "/subscriptions/" ++ name ∧ IsSegment topic ∧ IsSegment name := by
    rw [parse_eq_ok_iff, text_subscription_eq, eq_comm]
    rfl
  refine ⟨⟨hqueue, hsubscription, fun e => ?_, fun p => text_of_parse⟩, ?_⟩
  · constructor
    · intro h
      refine ⟨eq_invalidQueueName_of_parse h, fun hs => ?_, fun ⟨topic, name, hs⟩ => ?_⟩
      · exact nomatch h.symm.trans ((hqueue s).mpr ⟨hs, rfl⟩)
      · exact nomatch h.symm.trans ((hsubscription topic name).mpr hs)
    · rintro ⟨rfl, hsegment, hpair⟩
      cases hp : parse s with
      | error e => rw [eq_invalidQueueName_of_parse hp]
      | ok p =>
        cases p with
        | queue name => exact absurd ((hqueue name).mp hp).1 hsegment
        | subscription topic name =>
          exact absurd ⟨topic, name, (hsubscription topic name).mp hp⟩ hpair
  · rw [parse_eq_ok_iff]
    exact and_iff_right rfl

/-- A queue that is named like a subscription is not read back as a queue. -/
example : ¬ (queue "a/subscriptions/b").IsProper ∧
    parse (queue "a/subscriptions/b").text = .ok (.subscription "a" "b") := by
  decide

end PeekLock.EntityPath
