import Provenance.Proofs.Chain.Links
set_option autoImplicit false

/-!
# Verdicts: which broken link is reported, and as what

A chain is checked by a walk from its end that stops at the first thing wrong.  What
it looks for can be said without the walk.  Every element but the last commits to the
one after it (`Element.Commits`), and confirms the generator of that one, if there is
a generator (`Element.Confirms`).

`brokenLink?_decides` says that the walk decides just this, for chains of any content.
Where it fails, the verdict is about the last index where it does: what is missing or
different there (`BrokenLink.Describes`), the generator before the owner.
-/

namespace Provenance

namespace Element

/-- The generator of an element commits to the element after it. -/
def Commits (token : Token) (earlier later : Element) : Prop :=
  earlier.generator = some (.derive later.id token later.key)

/-- The owner of an element confirms the generator of the element after it, once that
one has a generator. -/
def Confirms (earlier later : Element) : Prop :=
  ∀ generator, later.generator = some generator → earlier.owner = some (.derive generator)

theorem not_confirms_iff {earlier later : Element} :
    ¬earlier.Confirms later ↔
      ∃ generator, later.generator = some generator ∧ earlier.owner ≠ some (.derive generator) := by
  simp only [Confirms, not_forall, exists_prop, ne_eq]

end Element

namespace BrokenLink

/-- What is said of two neighbours that are not linked.  It names the earlier one, and
speaks of the owner only where the generator is right. -/
inductive Describes (token : Token) (earlier later : Element) : BrokenLink → Prop where
  | missingGenerator (uncommitted : ¬earlier.Commits token later)
      (absent : earlier.generator = none) :
      Describes token earlier later (.missingGenerator earlier.id)
  | generatorMismatch {generator : Generator} (uncommitted : ¬earlier.Commits token later)
      (present : earlier.generator = some generator) :
      Describes token earlier later (.generatorMismatch earlier.id)
  | missingOwner (committed : earlier.Commits token later) (unconfirmed : ¬earlier.Confirms later)
      (absent : earlier.owner = none) :
      Describes token earlier later (.missingOwner earlier.id)
  | ownerMismatch {owner : Owner} (committed : earlier.Commits token later)
      (unconfirmed : ¬earlier.Confirms later) (present : earlier.owner = some owner) :
      Describes token earlier later (.ownerMismatch earlier.id)

variable {token : Token} {earlier later : Element} {link : BrokenLink}

/-! ## One link -/

theorem Describes.id_eq (described : link.Describes token earlier later) :
    link.id = earlier.id := by
  cases described <;> rfl

/-- A generator that is reported does not commit to the later element. -/
theorem describes_of_ofGenerator? (reported : ofGenerator? token later earlier = some link) :
    link.Describes token earlier later := by
  have uncommitted : ¬earlier.Commits token later := by
    intro committed
    rw [ofGenerator?_eq_none_iff.mpr committed] at reported
    cases reported
  unfold ofGenerator? at reported
  cases present : earlier.generator with
  | none =>
    rw [present] at reported
    obtain rfl := Option.some.inj reported
    exact .missingGenerator uncommitted present
  | some generator =>
    simp only [present] at reported
    split at reported
    · cases reported
    · obtain rfl := Option.some.inj reported
      exact .generatorMismatch uncommitted present

/-- An owner that is reported does not confirm the generator of the later element. -/
theorem describes_of_ofOwner? (committed : earlier.Commits token later)
    (reported : ofOwner? later earlier = some link) : link.Describes token earlier later := by
  have unconfirmed : ¬earlier.Confirms later := by
    intro confirmed
    have holds := between?_eq_none_iff.mpr ⟨committed, confirmed⟩
    rw [between?, Option.or_eq_none_iff, reported] at holds
    cases holds.2
  unfold ofOwner? at reported
  cases commitment : later.generator with
  | none =>
    rw [commitment] at reported
    cases reported
  | some generator =>
    rw [commitment] at reported
    cases present : earlier.owner with
    | none =>
      rw [present] at reported
      obtain rfl := Option.some.inj reported
      exact .missingOwner committed unconfirmed present
    | some owner =>
      simp only [present] at reported
      split at reported
      · cases reported
      · obtain rfl := Option.some.inj reported
        exact .ownerMismatch committed unconfirmed present

/-- **A link is reported as what is wrong with it.** -/
theorem between?_eq_some_iff :
    between? token later earlier = some link ↔ link.Describes token earlier later := by
  constructor
  · intro reported
    rw [between?, Option.or_eq_some_iff] at reported
    rcases reported with generator | ⟨right, owner⟩
    · exact describes_of_ofGenerator? generator
    · exact describes_of_ofOwner? (ofGenerator?_eq_none_iff.mp right) owner
  · intro described
    cases described with
    | missingGenerator _ absent =>
      exact between?_of_ofGenerator? (by simp only [ofGenerator?, absent])
    | generatorMismatch uncommitted present =>
      rw [Element.Commits, present, Option.some.injEq] at uncommitted
      exact between?_of_ofGenerator? (by simp only [ofGenerator?, present, if_neg uncommitted])
    | missingOwner committed unconfirmed absent =>
      obtain ⟨generator, commitment, _⟩ := Element.not_confirms_iff.mp unconfirmed
      rw [between?, ofGenerator?_eq_none_iff.mpr committed, Option.none_or]
      simp only [ofOwner?, commitment, absent]
    | ownerMismatch committed unconfirmed present =>
      obtain ⟨generator, commitment, differs⟩ := Element.not_confirms_iff.mp unconfirmed
      rw [present, ne_eq, Option.some.injEq] at differs
      rw [between?, ofGenerator?_eq_none_iff.mpr committed, Option.none_or]
      simp only [ofOwner?, commitment, present, if_neg differs]

theorem at?_eq_some_iff {elements : List Element} {i : Nat} :
    at? token elements i = some link ↔
      ∃ earlier later, elements[i]? = some earlier ∧ elements[i + 1]? = some later ∧
        link.Describes token earlier later := by
  constructor
  · intro broken
    have inside := succ_lt_length_of_at? broken
    have here := List.getElem?_eq_getElem (Nat.lt_of_succ_lt inside)
    have next := List.getElem?_eq_getElem inside
    rw [at?_of_getElem? here next, between?_eq_some_iff] at broken
    exact ⟨_, _, here, next, broken⟩
  · rintro ⟨earlier, later, here, next, described⟩
    exact (at?_of_getElem? here next).trans (between?_eq_some_iff.mpr described)

end BrokenLink

namespace Chain

/-! ## All links -/

/-- From the element at an index on, every element commits to the one after it and
confirms the generator of that one. -/
def LinkedFrom (c : Chain) (start : Nat) : Prop :=
  ∀ i earlier later, start ≤ i → c.elements[i]? = some earlier →
    c.elements[i + 1]? = some later → earlier.Commits c.token later ∧ earlier.Confirms later

/-- No link is broken from an index on exactly if the elements are linked from there. -/
theorem linkedFrom_iff {c : Chain} {start : Nat} :
    c.LinkedFrom start ↔ ∀ i, start ≤ i → BrokenLink.at? c.token c.elements i = none := by
  constructor
  · intro linked i within
    by_cases inside : i + 1 < c.elements.length
    · have here := List.getElem?_eq_getElem (Nat.lt_of_succ_lt inside)
      have next := List.getElem?_eq_getElem inside
      rw [BrokenLink.at?_of_getElem? here next, BrokenLink.between?_eq_none_iff]
      exact linked i _ _ within here next
    · exact BrokenLink.at?_of_length_le (Nat.not_lt.mp inside)
  · intro intact i earlier later within here next
    have holds := intact i within
    rwa [BrokenLink.at?_of_getElem? here next, BrokenLink.between?_eq_none_iff] at holds

theorem linkedFrom_zero_iff {c : Chain} : c.LinkedFrom 0 ↔ c.brokenLink? = none := by
  rw [linkedFrom_iff, brokenLink?_eq_none_iff]
  exact ⟨fun intact i => intact i (Nat.zero_le i), fun intact i _ => intact i⟩

/-- **What the check of a chain decides.**  Whatever the elements contain:

* no link is reported exactly if every element but the last commits to the one after it
  and confirms the generator of that one, if it has a generator;
* a link is reported exactly if it describes what is wrong with the element at some
  index and the one after it, and all elements behind them are linked.  So the report is
  about the last index where something is wrong.  There it names the earlier element: a
  generator that is missing or different, or else an owner that is. -/
theorem brokenLink?_decides (c : Chain) :
    (c.brokenLink? = none ↔ c.LinkedFrom 0) ∧
      ∀ link, c.brokenLink? = some link ↔
        ∃ i earlier later, c.elements[i]? = some earlier ∧ c.elements[i + 1]? = some later ∧
          link.Describes c.token earlier later ∧ c.LinkedFrom (i + 1) := by
  refine ⟨linkedFrom_zero_iff.symm, fun link => ?_⟩
  rw [brokenLink?_eq_some_iff_at?]
  constructor
  · rintro ⟨i, broken, behind⟩
    obtain ⟨earlier, later, here, next, described⟩ := BrokenLink.at?_eq_some_iff.mp broken
    exact ⟨i, earlier, later, here, next, described, linkedFrom_iff.mpr behind⟩
  · rintro ⟨i, earlier, later, here, next, described, linked⟩
    refine ⟨i, ?_, linkedFrom_iff.mp linked⟩
    exact BrokenLink.at?_eq_some_iff.mpr ⟨earlier, later, here, next, described⟩

end Chain

end Provenance
