import Provenance.Chain.BrokenLink
import Provenance.Proofs.Chain.InPlace
set_option autoImplicit false

/-!
# Transfers: what one does to a chain

`Chain.handOver` is taken apart once and for all.  A transfer is allowed by the
last element alone (`Takes`), and it does two things: it rewrites the elements
(`extended`) and reports the cells it wrote (`Change.extending`).  The report
reads nothing of the elements but their ids, so two histories of the same ids
report the same change for the same key.

The main statement is `brokenLink?_of_handOver`: a transfer gives a chain the
verdict that it had with the commitment of its last element taken back.  It adds
no broken link, and it hides none but one at the element it rewrites.
-/

namespace Provenance

/-- The position after the given ones, the newest first, if there is one. -/
def Position.after? : List Position → Option Position
  | [] => some 0
  | last :: _ => Position.next? last

/-- The change that a transfer to `key` at `id` reports on elements of the given
ids, the newest first. -/
def Change.extending (token : Token) (id : Position) (key : Key) : List Position → Change
  | [] => .first id
  | last :: older =>
    { id
      generator := some (.derive id token key)
      generatorId := last
      owner := older.head?.map fun _ => .derive (.derive id token key)
      ownerId := older.head?.getD 0 }

@[simp] theorem Change.id_extending (token : Token) (id : Position) (key : Key)
    (ids : List Position) : (Change.extending token id key ids).id = id := by
  cases ids <;> rfl

namespace Chain

/-! ## Equality of chains -/

/-- Chains are equal when their data is. -/
theorem eq_of_newestFirst_eq {c d : Chain} (token : c.token = d.token)
    (newestFirst : c.newestFirst = d.newestFirst)
    (expectedLength : c.expectedLength = d.expectedLength) : c = d := by
  cases c
  cases d
  cases token
  cases newestFirst
  cases expectedLength
  rfl

/-! ## A transfer, taken apart -/

/-- The elements after a transfer to `key` at `id`, the newest first. -/
def extended (token : Token) (id : Position) (key : Key) : List Element → List Element
  | [] => [.unlinked id key]
  | last :: older =>
    .unlinked id key :: { last with generator := some (.derive id token key) } ::
      confirm (.derive id token key) older

/-- Whether elements, the newest first, may be followed by `key` at `id`: the
first one always, any other if its last element is free and held by another key. -/
def Takes (id : Position) (key : Key) : List Element → Prop
  | [] => id = 0
  | last :: _ => last.key ≠ key ∧ last.isBound = false ∧ last.id.next? = some id

instance (id : Position) (key : Key) (elements : List Element) :
    Decidable (Takes id key elements) :=
  match elements with
  | [] => inferInstanceAs (Decidable (id = 0))
  | _ :: _ => inferInstanceAs (Decidable (_ ∧ _ ∧ _))

/-- A transfer takes the position after those that are there. -/
theorem after?_of_takes {id : Position} {key : Key} {elements : List Element}
    (takes : Takes id key elements) : Position.after? (elements.map Element.id) = some id := by
  cases elements with
  | nil => exact congrArg some takes.symm
  | cons last older => exact takes.2.2

theorem next?_eq_after? (c : Chain) :
    c.next? = Position.after? (c.newestFirst.map Element.id) := by
  unfold next? last?
  cases c.newestFirst with
  | nil => rfl
  | cons last older => rfl

/-- A transfer adds one position and keeps the others. -/
@[simp] theorem map_id_extended (token : Token) (id : Position) (key : Key)
    (elements : List Element) :
    (extended token id key elements).map Element.id = id :: elements.map Element.id := by
  cases elements with
  | nil => rfl
  | cons last older => simp [extended, Element.unlinked]

/-- A transfer is allowed by `Takes`, rewrites the elements as `extended` says and
reports `Change.extending`; token and expected length stay. -/
theorem handOver_eq_ok_iff {c c' : Chain} {key : Key} {change : Change} :
    c.handOver key = .ok (c', change) ↔
      ∃ id, Takes id key c.newestFirst ∧ c'.token = c.token ∧
        c'.newestFirst = extended c.token id key c.newestFirst ∧
        c'.expectedLength = c.expectedLength ∧
        change = .extending c.token id key (c.newestFirst.map Element.id) := by
  obtain ⟨token, newestFirst, expectedLength, contiguous⟩ := c
  cases newestFirst with
  | nil =>
    simp only [handOver_nil, Except.ok.injEq, Prod.mk.injEq, Takes, extended, Change.extending,
      List.map_nil, exists_eq_left]
    constructor
    · intro same
      obtain ⟨rfl, rfl⟩ := same
      exact ⟨rfl, rfl, rfl, rfl⟩
    · intro known
      obtain ⟨htoken, helements, hlength, rfl⟩ := known
      exact ⟨(eq_of_newestFirst_eq htoken helements hlength).symm, rfl⟩
  | cons last older =>
    by_cases refused : last.key = key ∨ last.isBound = true
    · rw [handOver_of_refused contiguous refused]
      simp only [reduceCtorEq, false_iff]
      intro accepted
      obtain ⟨id, ⟨differs, free, _⟩, _⟩ := accepted
      rcases refused with same | bound
      · exact differs same
      · exact absurd (free.symm.trans bound) Bool.false_ne_true
    · have free := refused
      rw [not_or, Bool.not_eq_true] at refused
      cases next : last.id.next? with
      | none =>
        rw [handOver_of_end contiguous free next]
        simp only [reduceCtorEq, false_iff]
        intro accepted
        obtain ⟨id, ⟨_, _, some⟩, _⟩ := accepted
        exact absurd (next.symm.trans some) (by simp)
      | some id =>
        rw [handOver_of_next contiguous free next]
        simp only [Except.ok.injEq, Prod.mk.injEq]
        constructor
        · intro same
          obtain ⟨rfl, rfl⟩ := same
          refine ⟨id, ⟨refused.1, refused.2, next⟩, rfl, rfl, rfl, ?_⟩
          cases older <;> rfl
        · intro known
          obtain ⟨id', ⟨_, _, next'⟩, htoken, helements, hlength, rfl⟩ := known
          have same : id' = id := Option.some.inj (next'.symm.trans next)
          subst same
          refine ⟨(eq_of_newestFirst_eq htoken helements hlength).symm, ?_⟩
          cases older <;> rfl

/-- A transfer is accepted when the last element allows it. -/
theorem exists_handOver_of_takes {c : Chain} {id : Position} {key : Key}
    (takes : Takes id key c.newestFirst) :
    ∃ c', c'.newestFirst = extended c.token id key c.newestFirst ∧ c.handOver key =
      .ok (c', .extending c.token id key (c.newestFirst.map Element.id)) := by
  have contiguous :
      Contiguous ((extended c.token id key c.newestFirst).map Element.id) := by
    have before := c.contiguous
    rw [map_id_extended]
    cases elements : c.newestFirst with
    | nil => trivial
    | cons last older =>
      rw [elements] at takes before
      exact ⟨takes.2.2, before⟩
  exact ⟨⟨c.token, _, c.expectedLength, contiguous⟩, rfl,
    handOver_eq_ok_iff.mpr ⟨id, takes, rfl, rfl, rfl, rfl⟩⟩

/-- A transfer is refused by the last element: it holds the same key, it is committed
already, or nothing comes after its position. -/
theorem handOver_eq_error_iff {c : Chain} {key : Key} {e : ChainError} :
    c.handOver key = .error e ↔
      ∃ last, c.last? = some last ∧
        ((last.key = key ∨ last.isBound = true) ∧ e = .alreadyBound last.id ∨
          ¬(last.key = key ∨ last.isBound = true) ∧ last.id.next? = none ∧
            e = .positionsExhausted) := by
  obtain ⟨token, newestFirst, expectedLength, contiguous⟩ := c
  cases newestFirst with
  | nil => simp [handOver_nil, last?]
  | cons last older =>
    simp only [last?, List.head?_cons, Option.some.injEq, exists_eq_left']
    by_cases refused : last.key = key ∨ last.isBound = true
    · rw [handOver_of_refused contiguous refused, Except.error.injEq]
      simp only [refused, true_and, not_true_eq_false, false_and, or_false]
      exact eq_comm
    · simp only [refused, false_and, false_or, not_false_eq_true, true_and]
      cases next : last.id.next? with
      | none =>
        rw [handOver_of_end contiguous refused next]
        simp only [true_and, Except.error.injEq]
        exact eq_comm
      | some id => simp [handOver_of_next contiguous refused next]

/-! ## The verdict after a transfer -/

/-- The elements with the commitment of the newest one taken back. -/
def released : List Element → List Element
  | [] => []
  | last :: older => { last with generator := none } :: older

/-- The chain with the commitment of its last element taken back. -/
def release (c : Chain) : Chain where
  token := c.token
  newestFirst := released c.newestFirst
  expectedLength := c.expectedLength
  contiguous := by
    have ids : (released c.newestFirst).map Element.id = c.newestFirst.map Element.id := by
      cases c.newestFirst <;> rfl
    rw [ids]
    exact c.contiguous

/-- Of the newer element a link reads no owner, so confirming it changes nothing
for the links before. -/
theorem first?_confirm (token : Token) (generator : Generator) (older : List Element) :
    BrokenLink.first? token (confirm generator older) = BrokenLink.first? token older := by
  cases older with
  | nil => rfl
  | cons e older =>
    cases older with
    | nil => rfl
    | cons _ _ => rfl

/-- Two neighbours of which the newer one is not committed are linked by the
generator alone. -/
theorem between?_of_uncommitted (token : Token) {later earlier : Element}
    (free : later.generator = none) :
    BrokenLink.between? token later earlier = BrokenLink.ofGenerator? token later earlier := by
  simp [BrokenLink.between?, BrokenLink.ofOwner?, free]

/-- A link whose owner confirms what the newer element is committed to depends on
the generator of the older one alone. -/
theorem between?_of_confirmed (token : Token) {later earlier : Element} {generator : Generator}
    (committed : later.generator = some generator)
    (confirmed : earlier.owner = some (.derive generator)) :
    BrokenLink.between? token later earlier = BrokenLink.ofGenerator? token later earlier := by
  simp [BrokenLink.between?, BrokenLink.ofOwner?, committed, confirmed]

/-- The links after a transfer are as good as those before it, the one the last
element commits to left aside. -/
theorem first?_extended (token : Token) (id : Position) (key : Key) (elements : List Element) :
    BrokenLink.first? token (extended token id key elements) =
      BrokenLink.first? token (released elements) := by
  cases elements with
  | nil => rfl
  | cons last older =>
    -- The new link holds: its generator was just derived, and nothing confirms it yet.
    have newest : BrokenLink.between? token (.unlinked id key)
        { last with generator := some (.derive id token key) } = none := by
      rw [between?_of_uncommitted token rfl]
      simp [BrokenLink.ofGenerator?, Element.unlinked]
    simp only [extended, released, BrokenLink.first?, newest, Option.none_or]
    cases older with
    | nil => rfl
    | cons e older =>
      have rest := first?_confirm token (.derive id token key) (e :: older)
      simp only [confirm] at rest ⊢
      simp only [BrokenLink.first?, rest]
      rw [between?_of_confirmed token rfl rfl, between?_of_uncommitted token rfl]
      rfl

/-- Taking the last commitment back breaks no link. -/
theorem first?_released_of_none {token : Token} {elements : List Element}
    (intact : BrokenLink.first? token elements = none) :
    BrokenLink.first? token (released elements) = none := by
  cases elements with
  | nil => rfl
  | cons last older =>
    cases older with
    | nil => rfl
    | cons e older =>
      simp only [BrokenLink.first?, Option.or_eq_none_iff] at intact
      obtain ⟨link, rest⟩ := intact
      simp only [BrokenLink.between?, Option.or_eq_none_iff] at link
      simp only [released, BrokenLink.first?, Option.or_eq_none_iff]
      refine ⟨?_, rest⟩
      rw [between?_of_uncommitted token rfl]
      exact link.1

/-- A transfer breaks no link. -/
theorem intact_of_handOver {c c' : Chain} {key : Key} {change : Change}
    (accepted : c.handOver key = .ok (c', change)) (intact : c.brokenLink? = none) :
    c'.brokenLink? = none := by
  obtain ⟨id, _, token, elements, _, _⟩ := handOver_eq_ok_iff.mp accepted
  rw [brokenLink?, token, elements, first?_extended]
  exact first?_released_of_none intact

/-- **What a transfer does to the verdict.**  Whatever is stored in the elements,
the first broken link after an accepted transfer is the one that the chain had
with the commitment of its last element taken back.  So an intact chain stays
intact, and where the last element was not committed, the verdict is the same. -/
theorem brokenLink?_of_handOver {c c' : Chain} {key : Key} {change : Change}
    (accepted : c.handOver key = .ok (c', change)) :
    c'.brokenLink? = c.release.brokenLink? ∧
      (c.brokenLink? = none → c'.brokenLink? = none) ∧
      ((∀ last, c.last? = some last → last.generator = none) →
        c'.brokenLink? = c.brokenLink?) := by
  obtain ⟨id, _, token, elements, _, _⟩ := handOver_eq_ok_iff.mp accepted
  have verdict : c'.brokenLink? = c.release.brokenLink? := by
    unfold brokenLink?
    rw [token, elements]
    exact first?_extended c.token id key c.newestFirst
  refine ⟨verdict, fun intact => ?_, fun free => ?_⟩
  · rw [verdict]
    exact first?_released_of_none intact
  · have same : released c.newestFirst = c.newestFirst := by
      unfold last? at free
      cases elements : c.newestFirst with
      | nil => rfl
      | cons last older =>
        rw [elements] at free
        rw [released, ← free last rfl]
    rw [verdict, brokenLink?, brokenLink?]
    exact congrArg (BrokenLink.first? c.token) same

/-- Two elements, the last of which repeats its own key and is not confirmed. -/
def unconfirmed : Chain where
  token := ⟨"T"⟩
  newestFirst :=
    [{ id := 1, key := ⟨"K"⟩, generator := some ⟨"K"⟩, owner := none },
      { id := 0, key := ⟨"A"⟩, generator := some (.derive 1 ⟨"T"⟩ ⟨"K"⟩), owner := none }]
  expectedLength := 2
  contiguous := ⟨by decide, trivial⟩

/-- The damage at the last element is the one kind that a transfer hides. -/
theorem brokenLink?_of_handOver_unconfirmed :
    unconfirmed.brokenLink? = some (.missingOwner 0) ∧
      ∃ c' change, unconfirmed.handOver ⟨"L"⟩ = .ok (c', change) ∧ c'.brokenLink? = none := by
  have takes : Takes 2 ⟨"L"⟩ unconfirmed.newestFirst := by decide
  obtain ⟨c', _, accepted⟩ := exists_handOver_of_takes takes
  refine ⟨by simp [brokenLink?, unconfirmed, BrokenLink.first?, BrokenLink.between?,
    BrokenLink.ofGenerator?, BrokenLink.ofOwner?], c', _, accepted, ?_⟩
  rw [(brokenLink?_of_handOver accepted).1]
  simp [brokenLink?, release, released, unconfirmed, BrokenLink.first?, BrokenLink.between?,
    BrokenLink.ofGenerator?, BrokenLink.ofOwner?]

end Chain

end Provenance
