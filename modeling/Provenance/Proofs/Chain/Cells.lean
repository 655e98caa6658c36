import Provenance.Chain.Edit
import Provenance.Proofs.Chain.Rebuild
set_option autoImplicit false

/-!
# Cells: what stands in them, and how it is overwritten

A key is always there, a generator or an owner may be missing, so what can stand in a
cell depends on the cell (`Cell.Content`).  `Cell.read` takes it from the row of the
cell, `Cell.write` puts something else in its place, and `Cell.edit` is the edit of
rows that does this.  No id changes, so the rows of a chain are a chain again
(`exists_ofElements_edit`).
-/

namespace Provenance

namespace Cell

/-! ## Contents -/

/-- What can stand in a cell. -/
def Content : Cell → Type
  | .key _ => Key
  | .generator _ => Option Generator
  | .owner _ => Option Owner

/-- What stands in a cell, if this is its row. -/
def read (row : Element) : (cell : Cell) → cell.Content
  | .key _ => row.key
  | .generator _ => row.generator
  | .owner _ => row.owner

/-- The row with another content of the cell. -/
def write : (cell : Cell) → cell.Content → Element → Element
  | .key _, content, row => { row with key := content }
  | .generator _, content, row => { row with generator := content }
  | .owner _, content, row => { row with owner := content }

/-- The edit that overwrites a cell. -/
def edit : (cell : Cell) → cell.Content → Edit
  | .key index, content => .setKey index content
  | .generator index, content => .setGenerator index content
  | .owner index, content => .setOwner index content

@[simp] theorem id_write (cell : Cell) (content : cell.Content) (row : Element) :
    (cell.write content row).id = row.id := by
  cases cell <;> rfl

/-- An edit of a cell writes to the row of the cell, if that is there. -/
theorem rowsAfter?_edit (cell : Cell) (content : cell.Content) (rows : List Element) :
    (cell.edit content).rowsAfter? rows =
      if cell.index < rows.length then some (rows.modify cell.index (cell.write content))
      else none := by
  cases cell <;> rfl

/-- Overwriting a cell changes no id. -/
theorem map_id_modify_write (cell : Cell) (content : cell.Content) (rows : List Element) :
    (rows.modify cell.index (cell.write content)).map Element.id = rows.map Element.id := by
  refine List.ext_getElem? fun i => ?_
  rw [List.getElem?_map, List.getElem?_map, List.getElem?_modify]
  cases rows[i]? with
  | none => rfl
  | some row =>
    by_cases same : cell.index = i <;> simp [same]

/-! ## The cells that are linked -/

@[simp] theorem key_mem_linked_iff {i length : Nat} :
    .key i ∈ linked length ↔ 0 < i ∧ i < length := by
  simp only [linked, List.mem_append, List.mem_map, List.mem_range, Cell.key.injEq, reduceCtorEq,
    and_false, exists_false, or_false]
  constructor
  · rintro ⟨j, inside, rfl⟩
    omega
  · intro inside
    exact ⟨i - 1, by omega, by omega⟩

@[simp] theorem generator_mem_linked_iff {i length : Nat} :
    .generator i ∈ linked length ↔ i + 1 < length := by
  simp [linked]
  omega

@[simp] theorem owner_mem_linked_iff {i length : Nat} :
    .owner i ∈ linked length ↔ i + 2 < length := by
  simp [linked]
  omega

/-- The row of a linked cell is there. -/
theorem index_lt_of_mem_linked {cell : Cell} {length : Nat} (linked : cell ∈ linked length) :
    cell.index < length := by
  cases cell with
  | key i => exact (key_mem_linked_iff.mp linked).2
  | generator i => exact Nat.lt_of_succ_lt (generator_mem_linked_iff.mp linked)
  | owner i => exact Nat.lt_of_add_right_lt (owner_mem_linked_iff.mp linked)

end Cell

namespace Chain

theorem length_elements (c : Chain) : c.elements.length = c.length :=
  List.length_reverse

/-- Every element but the last has one after it. -/
theorem exists_neighbours {c : Chain} {i : Nat} (inside : i + 1 < c.length) :
    ∃ earlier later, c.elements[i]? = some earlier ∧ c.elements[i + 1]? = some later := by
  rw [← length_elements] at inside
  exact ⟨_, _, List.getElem?_eq_getElem (Nat.lt_of_succ_lt inside),
    List.getElem?_eq_getElem inside⟩

/-- The rows of a chain are a chain again when a cell of them has been overwritten. -/
theorem exists_ofElements_edit (c : Chain) {cell : Cell} (inside : cell.index < c.length)
    (content : cell.Content) :
    ∃ rows c', (cell.edit content).rowsAfter? c.elements = some rows ∧
      rows = c.elements.modify cell.index (cell.write content) ∧
      ofElements c.token rows = .ok c' ∧ c'.token = c.token ∧ c'.elements = rows := by
  have edited := cell.rowsAfter?_edit content c.elements
  rw [length_elements, if_pos inside] at edited
  have contiguous : Contiguous
      ((c.elements.modify cell.index (cell.write content)).reverse.map Element.id) := by
    rw [List.map_reverse, Cell.map_id_modify_write, ← List.map_reverse, elements,
      List.reverse_reverse]
    exact c.contiguous
  obtain ⟨c', built, token, elements⟩ := exists_ofElements_of_contiguous c.token contiguous
  exact ⟨_, c', edited, rfl, built, token, elements⟩

end Chain

end Provenance
