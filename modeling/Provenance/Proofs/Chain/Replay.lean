import Mathlib.Data.List.Chain
import Provenance.Proofs.Chain.Cells
import Provenance.Proofs.Chain.History
import Provenance.Proofs.Chain.Links
set_option autoImplicit false

/-!
# Replay: a chain made again from its keys

A chain is checked from its end; it is made from its start, by transfers that write
every cell one or two steps late.  `brokenLink?_eq_none_iff_replay` says that the two
agree.  Transfers to the keys of a chain, one after another, make a chain of their own
(`Chain.replay`), and the first chain is intact exactly when the two have the same
content in every linked cell.

Two facts carry this.  Elements that stand for the same keys at the same positions
(`SameKeys`) have the same linked cells if all their links hold (`agree_of_intact`);
and if they have, and nothing is committed at their ends, their links are equally good
(`at?_of_agree`).
-/

namespace Provenance

/-- Elements that stand for the same keys at the same positions. -/
structure SameKeys (elements elements' : List Element) : Prop where
  ids : elements.map Element.id = elements'.map Element.id
  keys : elements.map Element.key = elements'.map Element.key

/-- Elements that have the same content in every linked cell. -/
def Cell.Agree (elements elements' : List Element) : Prop :=
  ∀ cell ∈ Cell.linked elements.length,
    elements[cell.index]?.map (cell.read ·) = elements'[cell.index]?.map (cell.read ·)

/-- The last element, if there is one, is not committed to a successor. -/
def Uncommitted (elements : List Element) : Prop :=
  ∀ last, elements.getLast? = some last → last.generator = none

namespace SameKeys

variable {elements elements' : List Element} {token : Token} {i : Nat} {e : Element}

theorem symm (same : SameKeys elements elements') : SameKeys elements' elements :=
  ⟨same.ids.symm, same.keys.symm⟩

theorem trans {elements'' : List Element} (same : SameKeys elements elements')
    (same' : SameKeys elements' elements'') : SameKeys elements elements'' :=
  ⟨same.ids.trans same'.ids, same.keys.trans same'.keys⟩

theorem length_eq (same : SameKeys elements elements') : elements.length = elements'.length := by
  simpa using congrArg List.length same.ids

/-- Each element has a counterpart of the same position and key. -/
theorem exists_counterpart (same : SameKeys elements elements') (here : elements[i]? = some e) :
    ∃ e', elements'[i]? = some e' ∧ e'.id = e.id ∧ e'.key = e.key := by
  have ids := congrArg (·[i]?) same.ids
  have keys := congrArg (·[i]?) same.keys
  simp only [List.getElem?_map, here, Option.map_some] at ids keys
  obtain ⟨e', there, id⟩ := Option.map_eq_some_iff.mp ids.symm
  rw [there, Option.map_some, Option.some.injEq] at keys
  exact ⟨e', there, id, keys.symm⟩

end SameKeys

namespace BrokenLink

variable {elements elements' : List Element} {token : Token} {i : Nat} {e : Element}

/-- In an intact chain a generator that has a successor is determined by it. -/
theorem generator_of_intact (intact : ∀ i, at? token elements i = none) {later : Element}
    (here : elements[i]? = some e) (next : elements[i + 1]? = some later) :
    e.generator = some (.derive later.id token later.key) :=
  (between?_eq_none_iff.mp (between?_of_at? (intact i) here next)).1

/-- In an intact chain an owner that has two successors is determined by the second. -/
theorem owner_of_intact (intact : ∀ i, at? token elements i = none) {later latest : Element}
    (here : elements[i]? = some e) (next : elements[i + 1]? = some later)
    (nextButOne : elements[i + 2]? = some latest) :
    e.owner = some (.derive (.derive latest.id token latest.key)) :=
  (between?_eq_none_iff.mp (between?_of_at? (intact i) here next)).2 _
    (generator_of_intact intact next nextButOne)

/-- **Links fix the linked cells**: where all of them hold, the cells are determined by
the keys and their positions. -/
theorem agree_of_intact (same : SameKeys elements elements')
    (intact : ∀ i, at? token elements i = none) (intact' : ∀ i, at? token elements' i = none) :
    Cell.Agree elements elements' := by
  intro cell linked
  cases cell with
  | key i =>
    have inside := (Cell.key_mem_linked_iff.mp linked).2
    have here := List.getElem?_eq_getElem inside
    obtain ⟨e', here', _, key⟩ := same.exists_counterpart here
    simp only [Cell.index, here, here', Option.map_some]
    exact congrArg some key.symm
  | generator i =>
    have inside := Cell.generator_mem_linked_iff.mp linked
    have here := List.getElem?_eq_getElem (Nat.lt_of_succ_lt inside)
    have next := List.getElem?_eq_getElem inside
    obtain ⟨e', here', _, _⟩ := same.exists_counterpart here
    obtain ⟨later', next', id, key⟩ := same.exists_counterpart next
    simp only [Cell.index, here, here', Option.map_some]
    refine congrArg some ((generator_of_intact intact here next).trans ?_)
    rw [← id, ← key]
    exact (generator_of_intact intact' here' next').symm
  | owner i =>
    have inside := Cell.owner_mem_linked_iff.mp linked
    have here := List.getElem?_eq_getElem (Nat.lt_of_add_right_lt inside)
    have next := List.getElem?_eq_getElem (Nat.lt_of_succ_lt inside)
    have nextButOne := List.getElem?_eq_getElem inside
    obtain ⟨e', here', _, _⟩ := same.exists_counterpart here
    obtain ⟨later', next', _, _⟩ := same.exists_counterpart next
    obtain ⟨latest', nextButOne', id, key⟩ := same.exists_counterpart nextButOne
    simp only [Cell.index, here, here', Option.map_some]
    refine congrArg some ((owner_of_intact intact here next nextButOne).trans ?_)
    rw [← id, ← key]
    exact (owner_of_intact intact' here' next' nextButOne').symm

/-- Where linked cells and open ends agree, so do all generators. -/
theorem generator_eq_of_agree (same : SameKeys elements elements')
    (agree : Cell.Agree elements elements') (free : Uncommitted elements)
    (free' : Uncommitted elements') {e' : Element} (here : elements[i]? = some e)
    (here' : elements'[i]? = some e') : e'.generator = e.generator := by
  have inside := (List.getElem?_eq_some_iff.mp here).1
  by_cases inner : i + 1 < elements.length
  · have content := agree (.generator i) (Cell.generator_mem_linked_iff.mpr inner)
    simp only [Cell.index, here, here', Option.map_some] at content
    exact (Option.some.inj content).symm
  · have last : elements.length - 1 = i := by omega
    have last' : elements'.length - 1 = i := by rw [← same.length_eq, last]
    rw [free e (by rw [List.getLast?_eq_getElem?, last, here]),
      free' e' (by rw [List.getLast?_eq_getElem?, last', here'])]

/-- **The linked cells fix the links**, where the ends are open. -/
theorem at?_of_agree (same : SameKeys elements elements') (agree : Cell.Agree elements elements')
    (free : Uncommitted elements) (free' : Uncommitted elements') (i : Nat) :
    at? token elements' i = at? token elements i := by
  by_cases inside : i + 1 < elements.length
  · have here := List.getElem?_eq_getElem (Nat.lt_of_succ_lt inside)
    have next := List.getElem?_eq_getElem inside
    obtain ⟨e', here', earlierId, _⟩ := same.exists_counterpart here
    obtain ⟨later', next', laterId, laterKey⟩ := same.exists_counterpart next
    have generator := generator_eq_of_agree same agree free free' here here'
    have generator' := generator_eq_of_agree same agree free free' next next'
    rw [at?_of_getElem? here next, at?_of_getElem? here' next']
    by_cases inner : i + 2 < elements.length
    · have content := agree (.owner i) (Cell.owner_mem_linked_iff.mpr inner)
      simp only [Cell.index, here, here', Option.map_some] at content
      exact between?_congr laterId laterKey generator' earlierId generator
        (Option.some.inj content).symm
    · -- The link ends at the last element, which commits to nothing, and reads no owner.
      have last : elements.length - 1 = i + 1 := by omega
      have uncommitted := free _ (by rw [List.getLast?_eq_getElem?, last, next])
      rw [Chain.between?_of_uncommitted token uncommitted,
        Chain.between?_of_uncommitted token (generator'.trans uncommitted)]
      simp only [ofGenerator?, laterId, laterKey, earlierId, generator]
  · have beyond : elements.length ≤ i + 1 := Nat.not_lt.mp inside
    rw [at?_of_length_le beyond, at?_of_length_le (same.length_eq ▸ beyond)]

end BrokenLink

namespace Chain

/-! ## Transfers to one key after another -/

/-- The chain handed over to one key after another. -/
def replay (c : Chain) (keys : List Key) : Except ChainError Chain :=
  keys.foldlM (fun c key => (c.handOver key).map Prod.fst) c

theorem replay_concat {c d : Chain} {keys : List Key} (replayed : c.replay keys = .ok d)
    (key : Key) : c.replay (keys ++ [key]) = (d.handOver key).map Prod.fst := by
  rw [replay] at replayed ⊢
  rw [List.foldlM_append, replayed]
  simp only [List.foldlM_cons, List.foldlM_nil, bind_pure]
  rfl

/-- Keys of which none follows itself make the chain of their history, transfer by
transfer. -/
theorem exists_replay_of_isChain (token : Token) (expectedLength : UInt64) {keys : List Key}
    (alternating : keys.IsChain (· ≠ ·)) (fits : keys.length ≤ UInt64.size) :
    ∃ d, replay (.empty token expectedLength) keys = .ok d ∧ d.token = token ∧
      d.newestFirst = (History.rows token keys).reverse := by
  induction keys using List.reverseRecOn with
  | nil => exact ⟨_, rfl, rfl, rfl⟩
  | append_singleton keys key ih =>
    obtain ⟨before, _, apart⟩ := List.isChain_append.mp alternating
    rw [List.length_append, List.length_singleton] at fits
    obtain ⟨d, replayed, rfl, elements⟩ := ih before (Nat.le_of_succ_le fits)
    have differs : keys.getLast? ≠ some key := fun last => apart key last key rfl rfl
    have takes : Takes (.ofNat keys.length) key d.newestFirst := by
      rw [elements]
      exact takes_of_history fits differs
    obtain ⟨d', grown, accepted⟩ := exists_handOver_of_takes takes
    obtain ⟨_, _, token, _⟩ := handOver_eq_ok_iff.mp accepted
    refine ⟨d', ?_, token, ?_⟩
    · rw [replay_concat replayed, accepted]
      rfl
    · rw [grown, elements, History.reverse_rows_concat]

/-! ## The chain and its replay -/

/-- A chain as transfers make one, its links left aside: it starts at the first
position, no key follows itself, and the last element is not committed. -/
structure Replayable (c : Chain) : Prop where
  fromZero : ∀ first, c.elements.head? = some first → first.id = 0
  alternating : (c.elements.map Element.key).IsChain (· ≠ ·)
  uncommitted : Uncommitted c.elements

/-- The positions of a chain that starts at the first one are those of a history. -/
theorem map_id_newestFirst_of_fromZero {c : Chain}
    (fromZero : ∀ first, c.elements.head? = some first → first.id = 0) :
    c.newestFirst.map Element.id = Position.countdown c.length := by
  have counted := Position.eq_countdown_of_contiguous c.contiguous fun id ends => by
    rw [List.getLast?_map] at ends
    obtain ⟨first, starts, rfl⟩ := Option.map_eq_some_iff.mp ends
    exact fromZero first (List.head?_reverse.trans starts)
  rwa [List.length_map] at counted

/-- A chain that starts at the first position stands for the keys of a history. -/
theorem sameKeys_rows_of_fromZero {c : Chain}
    (fromZero : ∀ first, c.elements.head? = some first → first.id = 0) :
    SameKeys c.elements (History.rows c.token (c.elements.map Element.key)) where
  ids := by
    refine List.reverse_injective ?_
    rw [← List.map_reverse, ← List.map_reverse, History.map_id_reverse_rows, List.length_map,
      length_elements, ← map_id_newestFirst_of_fromZero fromZero, newestFirst_eq]
  keys := (History.map_key_rows c.token _).symm

theorem uncommitted_rows (token : Token) (keys : List Key) :
    Uncommitted (History.rows token keys) := by
  intro last ends
  rw [← List.head?_reverse] at ends
  rcases List.eq_nil_or_concat keys with rfl | ⟨keys, key, rfl⟩
  · cases ends
  · rw [List.concat_eq_append] at ends
    obtain ⟨older, rows⟩ := History.exists_reverse_rows_concat token keys key
    rw [rows] at ends
    obtain rfl := Option.some.inj ends
    rfl

/-- **Checking a chain is comparing it with its replay.**  Take a chain that starts at
the first position, in which no key follows itself and whose last element is not
committed.  Transfers to its keys, one after another, are all accepted; and the chain
is intact exactly when the chain that they make has the same content in every linked
cell.  So two such chains of one token and with the same keys have the same linked
cells if both are intact. -/
theorem brokenLink?_eq_none_iff_replay {c : Chain} (replayable : c.Replayable)
    (expectedLength : UInt64) :
    let keys := c.elements.map Element.key
    ∃ d, replay (.empty c.token expectedLength) keys = .ok d ∧
      (c.brokenLink? = none ↔ Cell.Agree c.elements d.elements) ∧
      ∀ c' : Chain, c'.Replayable → c'.token = c.token → c'.elements.map Element.key = keys →
        c.brokenLink? = none → c'.brokenLink? = none → Cell.Agree c.elements c'.elements := by
  intro keys
  have same := sameKeys_rows_of_fromZero replayable.fromZero
  have fits : keys.length ≤ UInt64.size := by
    refine Position.le_of_contiguous_countdown ?_
    rw [List.length_map, length_elements, ← map_id_newestFirst_of_fromZero replayable.fromZero]
    exact c.contiguous
  have intactRows : ∀ i, BrokenLink.at? c.token (History.rows c.token keys) i = none :=
    BrokenLink.first?_reverse_eq_none_iff.mp (History.first?_reverse_rows c.token keys)
  obtain ⟨d, replayed, token, elements⟩ :=
    exists_replay_of_isChain c.token expectedLength replayable.alternating fits
  refine ⟨d, replayed, ?_, fun c' replayable' token' keys' intact intact' => ?_⟩
  · rw [Chain.elements, Chain.elements, elements, List.reverse_reverse, ← Chain.elements,
      brokenLink?_eq_none_iff]
    constructor
    · intro intact
      exact BrokenLink.agree_of_intact same intact intactRows
    · intro agree i
      rw [← intactRows i]
      exact (BrokenLink.at?_of_agree same agree replayable.uncommitted
        (uncommitted_rows c.token keys) i).symm
  · have same' := sameKeys_rows_of_fromZero replayable'.fromZero
    rw [token', keys'] at same'
    refine BrokenLink.agree_of_intact (same.trans same'.symm)
      (brokenLink?_eq_none_iff.mp intact) ?_
    rw [← token']
    exact brokenLink?_eq_none_iff.mp intact'

/-- Two elements, the first of which has lost its generator. -/
def severed : Chain where
  token := ⟨"T"⟩
  newestFirst := [.unlinked 1 ⟨"B"⟩, .unlinked 0 ⟨"A"⟩]
  expectedLength := 2
  contiguous := ⟨by decide, trivial⟩

/-- The replay of a broken chain is another chain. -/
theorem brokenLink?_eq_none_iff_replay_severed :
    severed.Replayable ∧ severed.brokenLink? = some (.missingGenerator 0) ∧
      ∃ d, replay (.empty ⟨"T"⟩ 0) [⟨"A"⟩, ⟨"B"⟩] = .ok d ∧
        ¬Cell.Agree severed.elements d.elements := by
  have replayable : severed.Replayable := {
    fromZero := by decide
    alternating := by decide
    uncommitted := by
      intro last ends
      obtain rfl := Option.some.inj ends
      rfl }
  have broken : severed.brokenLink? = some (.missingGenerator 0) := rfl
  obtain ⟨d, replayed, verdict, _⟩ := brokenLink?_eq_none_iff_replay replayable 0
  refine ⟨replayable, broken, d, replayed, fun agree => ?_⟩
  have intact := verdict.mpr agree
  rw [broken] at intact
  cases intact

end Chain

end Provenance
