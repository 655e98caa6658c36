import Provenance.Proofs.Chain.Offers
import Provenance.Proofs.Chain.Tampering
set_option autoImplicit false

/-!
# Free cells: what no link of a history depends on

The cells of a chain that are not linked are the first key, the last generator and the
last two owners.  In a chain that transfers have made, each of them can be overwritten
and the chain is still intact, with one exception.  A generator that is put into the
last of several elements makes that element look committed to a successor, and nothing
confirms it: the transfer that would write the owner has not been made.

`brokenLink?_of_unlinked` says so for every chain and every cell, and what is reported
in the exceptional case (`Start.objection?`).
-/

namespace Provenance

/-- The generator, if one is put into an element that has one before it. -/
def Cell.commitment? : (cell : Cell) → cell.Content → Option Generator
  | .generator (_ + 1), content => content
  | _, _ => none

namespace BrokenLink

variable {token : Token} {elements : List Element} {earlier later : Element} {i k n : Nat}

/-! ## What a link does not read -/

/-- The key of the first element is read by no link. -/
theorem at?_modify_firstKey (key : Key) (i : Nat) :
    at? token (elements.modify 0 (Cell.write (.key 0) key)) i = at? token elements i := by
  cases i with
  | zero => exact at?_modify_key key
  | succ i => exact at?_modify_of_ne _ (Nat.succ_ne_zero i).symm (Nat.succ_ne_zero _).symm

/-- The owner of an element is read by no link, as long as the element after it, if
there is one, is not committed. -/
theorem at?_modify_owner (uncommitted : ∀ later, elements[k + 1]? = some later →
    later.generator = none) (owner : Option Owner) (i : Nat) :
    at? token (elements.modify k (Cell.write (.owner k) owner)) i = at? token elements i := by
  rcases eq_or_ne k i with rfl | apart
  · refine at?_modify_congr fun earlier later here next => ?_
    have free := uncommitted later next
    rw [at?_modify_earlier here next, Chain.between?_of_uncommitted token free,
      Chain.between?_of_uncommitted token free]
    rfl
  · rcases eq_or_ne k (i + 1) with rfl | apart'
    · refine at?_modify_congr fun earlier later here next => ?_
      exact (at?_modify_later here next _).trans (between?_congr rfl rfl rfl rfl rfl rfl)
    · exact at?_modify_of_ne _ apart apart'

/-- A generator that is put into the last element has to be confirmed by the one before. -/
theorem at?_modify_lastGenerator (holds : at? token elements n = none)
    (here : elements[n]? = some earlier) (next : elements[n + 1]? = some later)
    (generator : Option Generator) :
    at? token (elements.modify (n + 1) (Cell.write (.generator (n + 1)) generator)) n =
      ofOwner? { later with generator := generator } earlier := by
  obtain ⟨commits, _⟩ := between?_eq_none_iff.mp (between?_of_at? holds here next)
  refine (at?_modify_later here next _).trans ?_
  have committed : ofGenerator? token { later with generator := generator } earlier = none :=
    ofGenerator?_eq_none_iff.mpr commits
  rw [between?]
  exact congrArg (Option.or · _) committed

end BrokenLink

namespace Chain

/-! ## The last rows of a history -/

namespace Start

variable {keys : List Key} {n : Nat} {earlier later : Element}

/-- How a chain started shows in the first row alone. -/
theorem getElem?_rows_succ (start : Start) (keys : List Key) (i : Nat) :
    (start.rows keys)[i + 1]? = (History.rows start.chain.token keys)[i + 1]? := by
  cases start with
  | vacant token expectedLength => rfl
  | held data passphrase => exact List.getElem?_modifyHead_succ

@[simp] theorem length_rows (start : Start) (keys : List Key) :
    (start.rows keys).length = keys.length := by
  cases start with
  | vacant token expectedLength => exact History.length_rows token keys
  | held data passphrase =>
    rw [rows, List.length_modifyHead, History.length_rows]

/-- The last of several rows is not committed. -/
theorem generator_of_last (start : Start) (counted : keys.length = n + 2)
    (there : (start.rows keys)[n + 1]? = some later) : later.generator = none := by
  rw [getElem?_rows_succ, History.getElem?_rows] at there
  obtain ⟨key, _, rfl⟩ := Option.map_eq_some_iff.mp there
  rw [History.row, List.getElem?_eq_none (Nat.le_of_eq counted), Option.map_none]

/-- What is said of a generator in the last of several elements of a chain that was made
by transfers.  The element before it has no owner yet, unless it started the chain and
has its own key there. -/
def objection? (start : Start) (length : Nat) (generator : Generator) : Option BrokenLink :=
  match start, length with
  | .held data passphrase, 2 =>
    if Owner.ofKey (.first (.ofData data) passphrase) = .derive generator then none
    else some (.ownerMismatch 0)
  | _, _ => some (.missingOwner (.ofNat (length - 2)))

theorem ofOwner?_of_lastGenerator (start : Start) (begins : start.keys <+: keys)
    (counted : keys.length = n + 2) (here : (start.rows keys)[n]? = some earlier)
    (later : Element) (generator : Generator) :
    BrokenLink.ofOwner? { later with generator := some generator } earlier =
      start.objection? (n + 2) generator := by
  have beyond : keys[n + 2]? = none := List.getElem?_eq_none (Nat.le_of_eq counted)
  have unwritten (token : Token) (key : Key) : (History.row token keys n key).owner = none := by
    rw [History.row, beyond, Option.map_none]
  cases n with
  | succ n =>
    rw [getElem?_rows_succ, History.getElem?_rows] at here
    obtain ⟨key, _, rfl⟩ := Option.map_eq_some_iff.mp here
    simp only [BrokenLink.ofOwner?, unwritten]
    cases start <;> rfl
  | zero =>
    cases start with
    | vacant token expectedLength =>
      rw [rows, History.getElem?_rows] at here
      obtain ⟨key, _, rfl⟩ := Option.map_eq_some_iff.mp here
      simp only [BrokenLink.ofOwner?, unwritten]
      rfl
    | held data passphrase =>
      obtain ⟨later, rfl⟩ := begins
      rw [rows, List.getElem?_modifyHead, if_pos rfl, History.getElem?_rows] at here
      obtain rfl := Option.some.inj here
      simp only [BrokenLink.ofOwner?, Element.selfLinked, unwritten, Option.none_or]
      rfl

end Start

variable {start : Start} {keys : List Key} {c d : Chain} {n : Nat} {earlier later : Element}

/-- The verdict on an intact chain with another generator in its last element. -/
theorem brokenLink?_of_lastGenerator (intact : c.brokenLink? = none) (counted : c.length = n + 2)
    (here : c.elements[n]? = some earlier) (next : c.elements[n + 1]? = some later)
    {generator : Option Generator} (token : d.token = c.token)
    (elements : d.elements =
      c.elements.modify (n + 1) (Cell.write (.generator (n + 1)) generator)) :
    d.brokenLink? = BrokenLink.ofOwner? { later with generator := generator } earlier := by
  have links := brokenLink?_eq_none_iff.mp intact
  rw [← BrokenLink.at?_modify_lastGenerator (links n) here next generator, ← token, ← elements]
  -- Only one link reads the generator of the last element: none starts there.
  refine brokenLink?_of_others fun j apart => ?_
  rcases Nat.lt_or_gt_of_ne apart with before | behind
  · rw [token, elements, BrokenLink.at?_modify_of_ne _ (by omega) (by omega), links j]
  · refine BrokenLink.at?_of_length_le ?_
    rw [elements, List.length_modify, length_elements, counted]
    omega

/-- An intact chain whose last element is not committed stays intact when a cell that is
not linked is overwritten, as long as the last element is not committed then either. -/
theorem intact_of_unlinked (intact : c.brokenLink? = none)
    (free : ∀ n later, c.length = n + 2 → c.elements[n + 1]? = some later →
      later.generator = none)
    {cell : Cell} (inside : cell.index < c.length) (unlinked : cell ∉ Cell.linked c.length)
    {content : cell.Content} (uncommitted : cell.commitment? content = none)
    (token : d.token = c.token)
    (elements : d.elements = c.elements.modify cell.index (cell.write content)) :
    d.brokenLink? = none := by
  have links := brokenLink?_eq_none_iff.mp intact
  cases cell with
  | key k =>
    rw [Cell.key_mem_linked_iff] at unlinked
    obtain rfl : k = 0 := by
      by_contra positive
      exact unlinked ⟨Nat.pos_of_ne_zero positive, inside⟩
    refine brokenLink?_eq_none_iff.mpr fun i => ?_
    rw [token, elements]
    exact (BrokenLink.at?_modify_firstKey content i).trans (links i)
  | owner k =>
    rw [Cell.owner_mem_linked_iff] at unlinked
    refine brokenLink?_eq_none_iff.mpr fun i => ?_
    rw [token, elements]
    refine (BrokenLink.at?_modify_owner (fun later next => ?_) content i).trans (links i)
    have reached : k + 1 < c.length :=
      c.length_elements ▸ (List.getElem?_eq_some_iff.mp next).1
    exact free k later (by omega) next
  | generator k =>
    rw [Cell.generator_mem_linked_iff] at unlinked
    have counted : c.length = k + 1 := Nat.le_antisymm (Nat.not_lt.mp unlinked) inside
    cases k with
    | zero =>
      refine brokenLink?_eq_none_iff.mpr fun i => BrokenLink.at?_of_length_le ?_
      rw [elements, List.length_modify, length_elements, counted]
      exact Nat.le_add_left 1 i
    | succ n =>
      obtain rfl : content = none := uncommitted
      obtain ⟨earlier, later, here, next⟩ := exists_neighbours (Nat.le_of_eq counted.symm)
      exact brokenLink?_of_lastGenerator intact counted here next token elements

/-- **Overwriting a cell that is not linked.**  However a chain started and whatever keys
it was offered, and whatever is put into a cell of it that is not linked: the rows are
accepted as a chain, and this chain is intact, unless the cell is the generator of the
last of several elements and does not stay empty.  In this case what is reported is that
the element before it does not confirm this generator. -/
theorem brokenLink?_of_unlinked (start : Start) (offers : List Key) {cell : Cell}
    (inside : cell.index < (start.chain.offerAll offers).length)
    (unlinked : cell ∉ Cell.linked (start.chain.offerAll offers).length)
    (content : cell.Content) :
    let c := start.chain.offerAll offers
    ∃ rows d, (cell.edit content).rowsAfter? c.elements = some rows ∧
      ofElements c.token rows = .ok d ∧
      (cell.commitment? content = none → d.brokenLink? = none) ∧
      ∀ generator, cell.commitment? content = some generator →
        d.brokenLink? = start.objection? c.length generator := by
  intro c
  have reached : Reached start (start.keys ++ start.chain.accepted offers) c :=
    reached_offerAll (reached_start start) offers
  have rows : c.elements = start.rows (start.keys ++ start.chain.accepted offers) := by
    rw [elements, reached.elements, List.reverse_reverse]
  have counted : (start.keys ++ start.chain.accepted offers).length = c.length := by
    rw [← length_elements, rows, start.length_rows]
  obtain ⟨_, d, edited, rfl, built, token, elements⟩ := c.exists_ofElements_edit inside content
  refine ⟨_, d, edited, built, fun uncommitted => ?_, fun generator committed => ?_⟩
  · refine intact_of_unlinked reached.intact (fun n later ends there => ?_) inside unlinked
      uncommitted token elements
    rw [rows] at there
    exact start.generator_of_last (counted.trans ends) there
  · cases cell with
    | key k => cases committed
    | owner k => cases committed
    | generator k =>
      cases k with
      | zero => cases committed
      | succ n =>
        obtain rfl : content = some generator := committed
        rw [Cell.generator_mem_linked_iff] at unlinked
        have ends : c.length = n + 2 := Nat.le_antisymm (Nat.not_lt.mp unlinked) inside
        obtain ⟨earlier, later, here, next⟩ := exists_neighbours (Nat.le_of_eq ends.symm)
        rw [brokenLink?_of_lastGenerator reached.intact ends here next token elements, ends]
        rw [rows] at here
        exact start.ofOwner?_of_lastGenerator reached.begins (counted.trans ends) here later _

/-- In a history of three keys the owner of the second may be anything, but not the
generator of the third. -/
theorem brokenLink?_of_unlinked_threeOffers :
    let c := (Start.vacant ⟨"T"⟩ 0).chain.offerAll [⟨"A"⟩, ⟨"B"⟩, ⟨"C"⟩]
    (1 < c.length ∧ .owner 1 ∉ Cell.linked c.length ∧
      ∃ rows d, (Cell.edit (.owner 1) (some ⟨"F"⟩)).rowsAfter? c.elements = some rows ∧
        ofElements c.token rows = .ok d ∧ d.brokenLink? = none) ∧
    (2 < c.length ∧ .generator 2 ∉ Cell.linked c.length ∧
      ∃ rows d, (Cell.edit (.generator 2) (some ⟨"X"⟩)).rowsAfter? c.elements = some rows ∧
        ofElements c.token rows = .ok d ∧ d.brokenLink? = some (.missingOwner 1)) := by
  intro c
  have insideOwner : (Cell.owner 1).index < c.length := by decide
  have insideGenerator : (Cell.generator 2).index < c.length := by decide
  have unlinkedOwner : .owner 1 ∉ Cell.linked c.length := by decide
  have unlinkedGenerator : .generator 2 ∉ Cell.linked c.length := by decide
  obtain ⟨rows, d, edited, built, intact, _⟩ :=
    brokenLink?_of_unlinked _ _ insideOwner unlinkedOwner (some ⟨"F"⟩ : Option Owner)
  obtain ⟨rows', d', edited', built', _, objected⟩ :=
    brokenLink?_of_unlinked _ _ insideGenerator unlinkedGenerator (some ⟨"X"⟩ : Option Generator)
  exact ⟨⟨insideOwner, unlinkedOwner, rows, d, edited, built, intact rfl⟩,
    ⟨insideGenerator, unlinkedGenerator, rows', d', edited', built', objected ⟨"X"⟩ rfl⟩⟩

/-- A generator in the second of two elements is not linked, and yet it is missed that
nothing confirms it. -/
theorem brokenLink?_of_unlinked_unconfirmed :
    let c := (Start.vacant (.ofData [1]) 0).chain.offerAll [⟨"A"⟩, ⟨"B"⟩]
    c.length = 2 ∧ c.brokenLink? = none ∧ .generator 1 ∉ Cell.linked c.length ∧
      c.elements[1]?.map Element.generator = some none ∧
      ∃ rows d, (Cell.edit (.generator 1) (some ⟨"X"⟩)).rowsAfter? c.elements = some rows ∧
        ofElements c.token rows = .ok d ∧ d.brokenLink? = some (.missingOwner 0) := by
  intro c
  have counted : c.length = 2 := rfl
  have intact : c.brokenLink? = none :=
    (reached_offerAll (reached_start (.vacant (.ofData [1]) 0)) [⟨"A"⟩, ⟨"B"⟩]).intact
  have unlinked : .generator 1 ∉ Cell.linked c.length := by
    rw [counted]
    decide
  have inside : (Cell.generator 1).index < c.length := counted ▸ Nat.one_lt_two
  obtain ⟨rows, d, edited, rfl, built, token, elements⟩ :=
    c.exists_ofElements_edit inside (some ⟨"X"⟩ : Option Generator)
  obtain ⟨earlier, later, here, next⟩ := exists_neighbours (c := c) (i := 0) inside
  have verdict := brokenLink?_of_lastGenerator intact counted here next token elements
  obtain rfl := Option.some.inj here
  exact ⟨counted, intact, unlinked, rfl, _, d, edited, built, verdict⟩

end Chain

end Provenance
