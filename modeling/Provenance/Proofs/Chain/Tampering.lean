import Provenance.Proofs.Chain.Cells
import Provenance.Proofs.Chain.History
import Provenance.Proofs.Chain.Links
import Provenance.Proofs.Text.Hex
set_option autoImplicit false

/-!
# Tampering: overwriting one cell of an intact chain

Every linked cell is compared with something else when the chain is checked from its
end: a key and a generator by the link between their elements, an owner by the link
one element later, which reads a generator that the link behind it has forced to be
there.  Links further on do not read the cell at all.  So a chain with one linked
cell overwritten is found broken right there, and `brokenLink?_of_overwritten` says
how (`Cell.damage`).

A generator is compared with a digest of a text that contains the key.  A key that is
overwritten therefore escapes in one way only, if SHA3-256 has the same digest for
two different texts (`Cell.Collides`).
-/

namespace Provenance

/-! ## Texts of generators -/

namespace Generator

/-- Keys are told apart by the texts that are hashed for them at one position. -/
theorem source_injective (position : Position) (token : Token) :
    Function.Injective (source position token) := by
  intro a b same
  rw [source, source, Part.joined_number, Part.joined_number] at same
  have texts := String.append_right_inj _ |>.mp (String.append_right_inj _ |>.mp same)
  cases a
  cases b
  exact congrArg Key.mk texts

/-- Generators are the same when the digests of their texts are. -/
theorem derive_eq_derive_iff {position position' : Position} {token token' : Token} {a b : Key} :
    derive position token a = derive position' token' b ↔
      digest (source position token a) = digest (source position' token' b) := by
  rw [derive, derive, Generator.mk.injEq, hash_eq_hash_iff]

end Generator

namespace Cell

/-! ## What becomes of the link -/

/-- The link that a cell belongs to, as the index of its earlier element. -/
def link : Cell → Nat
  | .key i => i - 1
  | .generator i | .owner i => i

theorem link_le_index (cell : Cell) : cell.link ≤ cell.index := by
  cases cell with
  | key i => exact Nat.sub_le i 1
  | generator i => exact Nat.le_refl i
  | owner i => exact Nat.le_refl i

/-- How the link breaks that a cell belongs to, when the cell is overwritten; `id` is
the position of the link's earlier element. -/
def damage (id : Position) : (cell : Cell) → cell.Content → BrokenLink
  | .key _, _ => .generatorMismatch id
  | .generator _, none => .missingGenerator id
  | .generator _, some _ => .generatorMismatch id
  | .owner _, none => .missingOwner id
  | .owner _, some _ => .ownerMismatch id

/-- Whether overwriting a cell goes unseen because the hash function fails: the cell
holds a key, and the texts that are hashed with the old key and with the new one are
different but have one digest. -/
def Collides (token : Token) (row : Element) : (cell : Cell) → cell.Content → Prop
  | .key _, content =>
    Generator.source row.id token row.key ≠ Generator.source row.id token content ∧
      digest (Generator.source row.id token row.key) =
        digest (Generator.source row.id token content)
  | .generator _, _ => False
  | .owner _, _ => False

end Cell

namespace BrokenLink

variable {token : Token} {elements : List Element} {earlier later : Element} {i k : Nat}

/-- A link is unchanged when neither of its elements is. -/
theorem at?_modify_of_ne (f : Element → Element) (here : k ≠ i) (next : k ≠ i + 1) :
    at? token (elements.modify k f) i = at? token elements i :=
  at?_congr (List.getElem?_modify_ne f elements here) (List.getElem?_modify_ne f elements next)

theorem at?_modify_earlier (here : elements[i]? = some earlier)
    (next : elements[i + 1]? = some later) (f : Element → Element) :
    at? token (elements.modify i f) i = between? token later (f earlier) := by
  refine at?_of_getElem? ?_ ?_
  · rw [List.getElem?_modify_eq, here]
    rfl
  · rw [List.getElem?_modify_ne _ _ (Nat.ne_add_one i), next]

theorem at?_modify_later (here : elements[i]? = some earlier)
    (next : elements[i + 1]? = some later) (f : Element → Element) :
    at? token (elements.modify (i + 1) f) i = between? token (f later) earlier := by
  refine at?_of_getElem? ?_ ?_
  · rw [List.getElem?_modify_ne _ _ (Nat.succ_ne_self i), here]
  · rw [List.getElem?_modify_eq, next]
    rfl

/-- A link is unchanged by a change to an element that leaves it what it was. -/
theorem at?_modify_congr {f : Element → Element}
    (unread : ∀ earlier later, elements[i]? = some earlier → elements[i + 1]? = some later →
      at? token (elements.modify k f) i = between? token later earlier) :
    at? token (elements.modify k f) i = at? token elements i := by
  by_cases inside : i + 1 < elements.length
  · have here := List.getElem?_eq_getElem (Nat.lt_of_succ_lt inside)
    have next := List.getElem?_eq_getElem inside
    rw [unread _ _ here next, at?_of_getElem? here next]
  · have beyond := Nat.not_lt.mp inside
    rw [at?_of_length_le beyond, at?_of_length_le (by rwa [List.length_modify])]

/-- A link does not read the key of its earlier element. -/
theorem at?_modify_key (key : Key) :
    at? token (elements.modify i (Cell.write (.key i) key)) i = at? token elements i :=
  at?_modify_congr fun _ _ here next =>
    (at?_modify_earlier here next _).trans (between?_congr rfl rfl rfl rfl rfl rfl)

/-- Overwriting a cell leaves the links alone that come behind its own. -/
theorem at?_modify_of_link_lt {cell : Cell} (content : cell.Content) (behind : cell.link < i) :
    at? token (elements.modify cell.index (cell.write content)) i = at? token elements i := by
  cases cell with
  | key k =>
    by_cases same : k = i
    · subst same
      exact at?_modify_key content
    · simp only [Cell.link] at behind
      exact at?_modify_of_ne _ same (by simp only [Cell.index]; omega)
  | generator k =>
    exact at?_modify_of_ne _ (Nat.ne_of_lt behind) (Nat.ne_of_lt (Nat.lt_succ_of_lt behind))
  | owner k =>
    exact at?_modify_of_ne _ (Nat.ne_of_lt behind) (Nat.ne_of_lt (Nat.lt_succ_of_lt behind))

/-! ## The link of the cell -/

/-- A link that holds, with another key of the later element. -/
theorem between?_write_key (holds : between? token later earlier = none) (key : Key) :
    between? token (Cell.write (.key i) key later) earlier =
      if digest (Generator.source later.id token later.key) =
        digest (Generator.source later.id token key)
      then none else some (.generatorMismatch earlier.id) := by
  obtain ⟨committed, confirmed⟩ := between?_eq_none_iff.mp holds
  split
  case isTrue collide =>
    refine between?_eq_none_iff.mpr ⟨?_, confirmed⟩
    rw [committed]
    exact congrArg some (Generator.derive_eq_derive_iff.mpr collide)
  case isFalse apart =>
    refine between?_of_ofGenerator? ?_
    simp only [ofGenerator?, committed, Cell.write]
    exact if_neg fun same => apart (Generator.derive_eq_derive_iff.mp same)

/-- A link that holds, with another generator of the earlier element. -/
theorem between?_write_generator (holds : between? token later earlier = none)
    {generator : Option Generator} (differs : generator ≠ earlier.generator) :
    between? token later (Cell.write (.generator i) generator earlier) =
      some (Cell.damage earlier.id (.generator i) generator) := by
  obtain ⟨committed, _⟩ := between?_eq_none_iff.mp holds
  refine between?_of_ofGenerator? ?_
  cases generator with
  | none => rfl
  | some generator =>
    rw [committed, ne_eq, Option.some.injEq] at differs
    simp only [ofGenerator?, Cell.write]
    exact if_neg differs

/-- A link that holds and reads an owner, with another owner of the earlier element. -/
theorem between?_write_owner (holds : between? token later earlier = none)
    (read : later.generator.isSome = true) {owner : Option Owner}
    (differs : owner ≠ earlier.owner) :
    between? token later (Cell.write (.owner i) owner earlier) =
      some (Cell.damage earlier.id (.owner i) owner) := by
  obtain ⟨committed, confirmed⟩ := between?_eq_none_iff.mp holds
  obtain ⟨generator, known⟩ := Option.isSome_iff_exists.mp read
  rw [confirmed generator known] at differs
  have right : ofGenerator? token later (Cell.write (.owner i) owner earlier) = none :=
    ofGenerator?_eq_none_iff.mpr committed
  rw [between?, right, Option.none_or, ofOwner?, known]
  cases owner with
  | none => rfl
  | some owner =>
    rw [ne_eq, Option.some.injEq] at differs
    simp only [Cell.write]
    exact if_neg differs

/-- **An overwritten cell breaks its own link.**  All links held before, so the one
that the cell belongs to was compared with what stood there. -/
theorem at?_link_of_overwritten (intact : ∀ i, at? token elements i = none) {cell : Cell}
    (linked : cell ∈ Cell.linked elements.length) {row : Element}
    (there : elements[cell.index]? = some row) (start : elements[cell.link]? = some earlier)
    {content : cell.Content} (differs : content ≠ cell.read row)
    (apart : ¬Cell.Collides token row cell content) :
    at? token (elements.modify cell.index (cell.write content)) cell.link =
      some (Cell.damage earlier.id cell content) := by
  cases cell with
  | key i =>
    cases i with
    | zero => exact absurd (Cell.key_mem_linked_iff.mp linked).1 (Nat.lt_irrefl 0)
    | succ i =>
      have holds := between?_of_at? (intact i) start there
      have texts := (Generator.source_injective row.id token).ne (Ne.symm differs)
      refine (at?_modify_later start there _).trans ?_
      rw [between?_write_key holds content, if_neg fun same => apart ⟨texts, same⟩]
      rfl
  | generator i =>
    have inside := Cell.generator_mem_linked_iff.mp linked
    have next := List.getElem?_eq_getElem inside
    have holds := between?_of_at? (intact i) start next
    obtain rfl := Option.some.inj (there.symm.trans start)
    exact (at?_modify_earlier start next _).trans (between?_write_generator holds differs)
  | owner i =>
    have inside := Cell.owner_mem_linked_iff.mp linked
    have next := List.getElem?_eq_getElem (Nat.lt_of_succ_lt inside)
    have holds := between?_of_at? (intact i) start next
    obtain rfl := Option.some.inj (there.symm.trans start)
    -- The link behind holds too, so there is a generator for the owner to confirm.
    have behind := between?_of_at? (intact (i + 1)) next (List.getElem?_eq_getElem inside)
    have read := Option.isSome_of_eq_some (between?_eq_none_iff.mp behind).1
    exact (at?_modify_earlier start next _).trans (between?_write_owner holds read differs)

/-- Where the hash function fails, no link breaks. -/
theorem at?_of_collides (intact : ∀ i, at? token elements i = none) {cell : Cell}
    (linked : cell ∈ Cell.linked elements.length) {row : Element}
    (there : elements[cell.index]? = some row) {content : cell.Content}
    (collides : Cell.Collides token row cell content) (i : Nat) :
    at? token (elements.modify cell.index (cell.write content)) i = none := by
  cases cell with
  | key k =>
    rcases Nat.lt_trichotomy (i + 1) k with before | rfl | behind
    · refine (at?_modify_of_ne _ ?_ ?_).trans (intact i)
      · exact Nat.ne_of_gt (Nat.lt_of_succ_lt before)
      · exact Nat.ne_of_gt before
    · have inside := (Cell.key_mem_linked_iff.mp linked).2
      have start := List.getElem?_eq_getElem (Nat.lt_of_succ_lt inside)
      have holds := between?_of_at? (intact i) start there
      refine (at?_modify_later start there _).trans ?_
      rw [between?_write_key holds content, if_pos collides.2]
    · refine (at?_modify_of_link_lt content ?_).trans (intact i)
      have positive := (Cell.key_mem_linked_iff.mp linked).1
      simp only [Cell.link]
      omega
  | generator k => exact collides.elim
  | owner k => exact collides.elim

end BrokenLink

namespace Chain

/-- **Tampering with one cell is found, and told exactly.**  Whatever chain is intact,
and whatever is put in the place of the content of a linked cell of its rows: the rows
are accepted as a chain, and its verdict is the damage of that cell at the element that
its link starts from.  The one exception is a key whose text has, with a different
text, the same digest; then the chain is as intact as it was. -/
theorem brokenLink?_of_overwritten {c : Chain} (intact : c.brokenLink? = none) {cell : Cell}
    (linked : cell ∈ Cell.linked c.length) (content : cell.Content) :
    ∃ row earlier rows c', c.elements[cell.index]? = some row ∧
      c.elements[cell.link]? = some earlier ∧
      (cell.edit content).rowsAfter? c.elements = some rows ∧
      ofElements c.token rows = .ok c' ∧
      (content ≠ cell.read row →
        (¬Cell.Collides c.token row cell content →
          c'.brokenLink? = some (Cell.damage earlier.id cell content)) ∧
        (Cell.Collides c.token row cell content → c'.brokenLink? = none)) := by
  have links := brokenLink?_eq_none_iff.mp intact
  have inside := Cell.index_lt_of_mem_linked linked
  have inside' : cell.link < c.length := Nat.lt_of_le_of_lt cell.link_le_index inside
  obtain ⟨rows, c', edited, rfl, built, token, elements⟩ := c.exists_ofElements_edit inside content
  rw [← length_elements] at linked inside inside'
  have there := List.getElem?_eq_getElem inside
  have start := List.getElem?_eq_getElem inside'
  refine ⟨_, _, _, c', there, start, edited, built, fun differs => ⟨fun apart => ?_, ?_⟩⟩
  · refine brokenLink?_of_last (i := cell.link) ?_ fun j behind => ?_
    · rw [token, elements]
      exact BrokenLink.at?_link_of_overwritten links linked there start differs apart
    · rw [token, elements, BrokenLink.at?_modify_of_link_lt content behind]
      exact links j
  · intro collides
    refine brokenLink?_eq_none_iff.mpr fun i => ?_
    rw [token, elements]
    exact BrokenLink.at?_of_collides links linked there collides i

/-- A token that went through three keys. -/
def threeKeys : Chain where
  token := ⟨"T"⟩
  newestFirst := (History.rows ⟨"T"⟩ [⟨"A"⟩, ⟨"B"⟩, ⟨"C"⟩]).reverse
  expectedLength := 3
  contiguous := by
    rw [History.map_id_reverse_rows]
    exact Position.contiguous_countdown (by decide)

/-- The one owner that is written already is missed when it is taken away. -/
theorem brokenLink?_of_overwritten_threeKeys :
    threeKeys.brokenLink? = none ∧ .owner 0 ∈ Cell.linked threeKeys.length ∧
      ∃ rows c', (Cell.edit (.owner 0) none).rowsAfter? threeKeys.elements = some rows ∧
        ofElements ⟨"T"⟩ rows = .ok c' ∧ c'.brokenLink? = some (.missingOwner 0) := by
  have intact : threeKeys.brokenLink? = none := History.first?_reverse_rows _ _
  have linked : .owner 0 ∈ Cell.linked threeKeys.length := by decide
  obtain ⟨row, earlier, rows, c', there, start, edited, built, verdict⟩ :=
    brokenLink?_of_overwritten intact linked none
  obtain rfl : History.row ⟨"T"⟩ [⟨"A"⟩, ⟨"B"⟩, ⟨"C"⟩] 0 ⟨"A"⟩ = row := Option.some.inj there
  obtain rfl : History.row ⟨"T"⟩ [⟨"A"⟩, ⟨"B"⟩, ⟨"C"⟩] 0 ⟨"A"⟩ = earlier := Option.some.inj start
  have found := (verdict (Option.some_ne_none _).symm).1 (fun collides => collides)
  exact ⟨intact, linked, rows, c', edited, built, found⟩

end Chain

end Provenance
