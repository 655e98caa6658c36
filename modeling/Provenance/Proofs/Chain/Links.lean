import Mathlib.Data.List.Induction
import Provenance.Proofs.Chain.Rebuild
set_option autoImplicit false

/-!
# Links: a chain, link by link

A chain is checked by a walk from its end.  Here every link stands on its own:
`BrokenLink.at?` says what is wrong with the one between an element and the next,
counted from the first element.  A chain is intact when no link is broken
(`first?_reverse_eq_none_iff`), and a broken link behind which all links hold is the
one that the walk reports (`first?_reverse_of_last`).
-/

namespace Provenance

namespace BrokenLink

variable {token : Token} {earlier later : Element} {elements : List Element} {i : Nat}

/-! ## One link -/

/-- A generator is right when it is the one derived from the later position and key. -/
theorem ofGenerator?_eq_none_iff :
    ofGenerator? token later earlier = none ↔
      earlier.generator = some (.derive later.id token later.key) := by
  unfold ofGenerator?
  cases earlier.generator with
  | none => simp
  | some generator => simp

/-- A link holds when the earlier element commits to the later one, and confirms what
the later one commits to. -/
theorem between?_eq_none_iff :
    between? token later earlier = none ↔
      earlier.generator = some (.derive later.id token later.key) ∧
        ∀ generator, later.generator = some generator →
          earlier.owner = some (.derive generator) := by
  rw [between?, Option.or_eq_none_iff, ofGenerator?_eq_none_iff, ofOwner?]
  cases later.generator with
  | none => simp
  | some generator =>
    cases earlier.owner with
    | none => simp
    | some owner => simp

/-- A broken generator is reported, whatever the owner is. -/
theorem between?_of_ofGenerator? {link : BrokenLink}
    (broken : ofGenerator? token later earlier = some link) :
    between? token later earlier = some link := by
  rw [between?, broken, Option.some_or]

/-- A link reads neither the key of the earlier element nor the owner of the later
one. -/
theorem between?_congr {earlier' later' : Element} (id : later'.id = later.id)
    (key : later'.key = later.key) (generator : later'.generator = later.generator)
    (id' : earlier'.id = earlier.id) (generator' : earlier'.generator = earlier.generator)
    (owner' : earlier'.owner = earlier.owner) :
    between? token later' earlier' = between? token later earlier := by
  simp only [between?, ofGenerator?, ofOwner?, id, key, generator, id', generator', owner']

/-! ## All links -/

/-- What is wrong with the link from the element at an index to the one after it. -/
def at? (token : Token) (elements : List Element) (i : Nat) : Option BrokenLink :=
  match elements[i]?, elements[i + 1]? with
  | some earlier, some later => between? token later earlier
  | _, _ => none

theorem at?_of_getElem? (here : elements[i]? = some earlier)
    (next : elements[i + 1]? = some later) :
    at? token elements i = between? token later earlier := by
  simp only [at?, here, next]

theorem between?_of_at? (holds : at? token elements i = none) (here : elements[i]? = some earlier)
    (next : elements[i + 1]? = some later) : between? token later earlier = none :=
  (at?_of_getElem? here next).symm.trans holds

/-- No link starts from the last element. -/
theorem at?_of_length_le (beyond : elements.length ≤ i + 1) : at? token elements i = none := by
  unfold at?
  rw [List.getElem?_eq_none beyond]
  split
  case h_1 later impossible => cases impossible
  case h_2 => rfl

/-- A link that is broken has an element to lead to. -/
theorem succ_lt_length_of_at? {link : BrokenLink} (broken : at? token elements i = some link) :
    i + 1 < elements.length := by
  by_contra beyond
  rw [at?_of_length_le (Nat.not_lt.mp beyond)] at broken
  cases broken

/-- Links depend on nothing but the two elements that they join. -/
theorem at?_congr {elements' : List Element} (here : elements'[i]? = elements[i]?)
    (next : elements'[i + 1]? = elements[i + 1]?) :
    at? token elements' i = at? token elements i := by
  simp only [at?, here, next]

/-- A new element adds one link. -/
theorem first?_reverse_concat (token : Token) (elements : List Element) (earlier later : Element) :
    first? token (elements ++ [earlier] ++ [later]).reverse =
      (at? token (elements ++ [earlier] ++ [later]) elements.length).or
        (first? token (elements ++ [earlier]).reverse) := by
  have here : (elements ++ [earlier] ++ [later])[elements.length]? = some earlier := by simp
  have next : (elements ++ [earlier] ++ [later])[elements.length + 1]? = some later := by simp
  rw [at?_of_getElem? here next]
  simp [first?]

/-- A new element changes none of the links before. -/
theorem at?_concat (inner : i + 1 < elements.length) (e : Element) :
    at? token (elements ++ [e]) i = at? token elements i :=
  at?_congr (List.getElem?_append_left (by omega)) (List.getElem?_append_left inner)

/-- **A chain is intact when every link holds.** -/
theorem first?_reverse_eq_none_iff :
    first? token elements.reverse = none ↔ ∀ i, at? token elements i = none := by
  induction elements using List.reverseRecOn with
  | nil => exact ⟨fun _ _ => rfl, fun _ => rfl⟩
  | append_singleton older e ih =>
    rcases List.eq_nil_or_concat older with rfl | ⟨init, last, rfl⟩
    · exact ⟨fun _ i => at?_of_length_le (Nat.le_add_left 1 i), fun _ => rfl⟩
    · rw [List.concat_eq_append] at ih ⊢
      rw [first?_reverse_concat, Option.or_eq_none_iff, ih]
      constructor
      · rintro ⟨newest, others⟩ i
        rcases Nat.lt_trichotomy i init.length with before | rfl | after
        · rw [at?_concat (by simpa using before)]
          exact others i
        · exact newest
        · refine at?_of_length_le ?_
          simp only [List.length_append, List.length_singleton]
          omega
      · intro all
        refine ⟨all _, fun i => ?_⟩
        rcases Nat.lt_or_ge i init.length with before | after
        · rw [← at?_concat (by simpa using before) e]
          exact all i
        · exact at?_of_length_le (by simpa using after)

/-- **The walk reports the last broken link**, the one behind which all links hold. -/
theorem first?_reverse_of_last {link : BrokenLink} (broken : at? token elements i = some link)
    (behind : ∀ j, i < j → at? token elements j = none) :
    first? token elements.reverse = some link := by
  induction elements using List.reverseRecOn with
  | nil => cases broken
  | append_singleton older e ih =>
    rcases List.eq_nil_or_concat older with rfl | ⟨init, last, rfl⟩
    · rw [at?_of_length_le (Nat.le_add_left 1 i)] at broken
      cases broken
    · rw [List.concat_eq_append] at ih broken behind ⊢
      rw [first?_reverse_concat]
      rcases Nat.lt_trichotomy i init.length with before | rfl | after
      · rw [behind _ before, Option.none_or]
        rw [at?_concat (by simpa using before)] at broken
        refine ih broken fun j later => ?_
        rcases Nat.lt_or_ge j init.length with inner | outer
        · rw [← at?_concat (by simpa using inner) e]
          exact behind j later
        · exact at?_of_length_le (by simpa using outer)
      · rw [broken, Option.some_or]
      · have beyond : (init ++ [last] ++ [e]).length ≤ i + 1 := by
          simp only [List.length_append, List.length_singleton]
          omega
        rw [at?_of_length_le beyond] at broken
        cases broken

/-- **Only the last broken link is reported.** -/
theorem exists_last_of_first? {link : BrokenLink}
    (reported : first? token elements.reverse = some link) :
    ∃ i, at? token elements i = some link ∧ ∀ j, i < j → at? token elements j = none := by
  induction elements using List.reverseRecOn with
  | nil => cases reported
  | append_singleton older e ih =>
    rcases List.eq_nil_or_concat older with rfl | ⟨init, last, rfl⟩
    · cases reported
    · rw [List.concat_eq_append] at ih reported ⊢
      rw [first?_reverse_concat] at reported
      have beyond (j : Nat) (after : init.length < j) :
          at? token (init ++ [last] ++ [e]) j = none := by
        refine at?_of_length_le ?_
        simp only [List.length_append, List.length_singleton]
        omega
      cases newest : at? token (init ++ [last] ++ [e]) init.length with
      | some link' =>
        rw [newest, Option.some_or] at reported
        exact ⟨init.length, newest.trans reported, beyond⟩
      | none =>
        rw [newest, Option.none_or] at reported
        obtain ⟨i, broken, behind⟩ := ih reported
        have before : i < init.length := by simpa using succ_lt_length_of_at? broken
        refine ⟨i, (at?_concat (by simpa using before) e).trans broken, fun j later => ?_⟩
        rcases Nat.lt_trichotomy j init.length with inner | rfl | outer
        · exact (at?_concat (by simpa using inner) e).trans (behind j later)
        · exact newest
        · exact beyond j outer

end BrokenLink

namespace Chain

theorem newestFirst_eq (c : Chain) : c.newestFirst = c.elements.reverse :=
  (List.reverse_reverse c.newestFirst).symm

/-- The verdict on a chain is about the links of its elements. -/
theorem brokenLink?_eq_none_iff {c : Chain} :
    c.brokenLink? = none ↔ ∀ i, BrokenLink.at? c.token c.elements i = none := by
  rw [brokenLink?, newestFirst_eq, BrokenLink.first?_reverse_eq_none_iff]

/-- The verdict of a chain is what is wrong with its last broken link. -/
theorem brokenLink?_eq_some_iff_at? {c : Chain} {link : BrokenLink} :
    c.brokenLink? = some link ↔
      ∃ i, BrokenLink.at? c.token c.elements i = some link ∧
        ∀ j, i < j → BrokenLink.at? c.token c.elements j = none := by
  rw [brokenLink?, newestFirst_eq]
  constructor
  · exact BrokenLink.exists_last_of_first?
  · intro last
    obtain ⟨i, broken, behind⟩ := last
    exact BrokenLink.first?_reverse_of_last broken behind

theorem brokenLink?_of_last {c : Chain} {link : BrokenLink} {i : Nat}
    (broken : BrokenLink.at? c.token c.elements i = some link)
    (behind : ∀ j, i < j → BrokenLink.at? c.token c.elements j = none) :
    c.brokenLink? = some link := by
  rw [brokenLink?, newestFirst_eq, BrokenLink.first?_reverse_of_last broken behind]

/-- Where all other links hold, the verdict is about the one that is left. -/
theorem brokenLink?_of_others {c : Chain} {i : Nat}
    (others : ∀ j, j ≠ i → BrokenLink.at? c.token c.elements j = none) :
    c.brokenLink? = BrokenLink.at? c.token c.elements i := by
  cases left : BrokenLink.at? c.token c.elements i with
  | some link => exact brokenLink?_of_last left fun j behind => others j (Nat.ne_of_gt behind)
  | none =>
    refine brokenLink?_eq_none_iff.mpr fun j => ?_
    rcases eq_or_ne j i with rfl | apart
    · exact left
    · exact others j apart

end Chain

end Provenance
