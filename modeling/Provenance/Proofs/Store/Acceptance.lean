import Provenance.Proofs.Ledger.Progress
import Provenance.Proofs.Store.Run
set_option autoImplicit false

/-!
# Acceptance: which changes a store carries out

A store is handed changes by anyone: for any position, with cells for any rows, also for
rows that are not there or for the new row itself.  `Change.Refused` lists what speaks
against a change, each with what is answered then, and `Change.Fits` says what is asked
for; both look at nothing but the rows as they were before.

`respond_applyChange_decided` says that this decides.  Whatever is checked is checked
before anything is written, so a refused change leaves the store as it was, and an
accepted one writes its cells (`Change.writeTo`), adds its row and does nothing else.
-/

namespace Provenance

/-- The id that comes after the highest one of some rows, or the first id if there are no
rows. -/
def IsNextId (rows : List Element) (id : Position) : Prop :=
  rows = [] ∧ id = 0 ∨
    ∃ highest ∈ rows, (∀ row ∈ rows, row.id ≤ highest.id) ∧ id.toNat = highest.id.toNat + 1

/-- The next id is not one of those that are there. -/
theorem IsNextId.ne {rows : List Element} {id : Position} (next : IsNextId rows id) {row : Element}
    (member : row ∈ rows) : row.id ≠ id := by
  rcases next with ⟨rfl, _⟩ | ⟨highest, _, above, next⟩
  · cases member
  · rintro rfl
    have below := UInt64.le_iff_toNat_le.mp (above row member)
    omega

namespace Change

/-- Whether there is a row for every cell that a change writes, and its id is the next
one. -/
structure Fits (change : Change) (rows : List Element) : Prop where
  next : IsNextId rows change.id
  generatorRow : change.generator.isSome = true → ∃ row ∈ rows, row.id = change.generatorId
  ownerRow : change.owner.isSome = true → ∃ row ∈ rows, row.id = change.ownerId

/-- What speaks against a change of a token with the given rows, if it has rows, and what
is answered then. -/
inductive Refused (token : Token) (change : Change) :
    Option (List Element) → StoreError → Prop where
  | noTable : Refused token change none (.unknownToken token)
  | notNext {rows : List Element} (other : ¬IsNextId rows change.id) :
      Refused token change (some rows) (.conflict token change.id)
  | generatorRow {rows : List Element} (next : IsNextId rows change.id)
      (written : change.generator.isSome = true)
      (absent : ∀ row ∈ rows, row.id ≠ change.generatorId) :
      Refused token change (some rows) (.unknownRow token change.generatorId)
  | ownerRow {rows : List Element} (next : IsNextId rows change.id)
      (present : change.generator.isSome = true → ∃ row ∈ rows, row.id = change.generatorId)
      (written : change.owner.isSome = true)
      (absent : ∀ row ∈ rows, row.id ≠ change.ownerId) :
      Refused token change (some rows) (.unknownRow token change.ownerId)

/-- A row after the cells that a change writes to it. -/
def writeTo (change : Change) (row : Element) : Element :=
  { row with
    generator :=
      if row.id = change.generatorId then change.generator.or row.generator else row.generator
    owner := if row.id = change.ownerId then change.owner.or row.owner else row.owner }

variable {change : Change} {rows : List Element} {token : Token} {e : StoreError}

/-- Something speaks against a change of some rows unless it fits. -/
theorem exists_refused_or_fits (token : Token) (change : Change) (rows : List Element) :
    (∃ e, change.Refused token (some rows) e) ∨ change.Fits rows := by
  by_cases next : IsNextId rows change.id
  · by_cases present : change.generator.isSome = true → ∃ row ∈ rows, row.id = change.generatorId
    · by_cases present' : change.owner.isSome = true → ∃ row ∈ rows, row.id = change.ownerId
      · exact .inr ⟨next, present, present'⟩
      · push Not at present'
        exact .inl ⟨_, .ownerRow next present present'.1 present'.2⟩
    · push Not at present
      exact .inl ⟨_, .generatorRow next present.1 present.2⟩
  · exact .inl ⟨_, .notNext next⟩

/-- Nothing speaks against a change that fits. -/
theorem Fits.not_refused (fits : change.Fits rows) : ¬change.Refused token (some rows) e := by
  intro refused
  cases refused with
  | notNext other => exact other fits.next
  | generatorRow _ written absent =>
    obtain ⟨row, member, same⟩ := fits.generatorRow written
    exact absent row member same
  | ownerRow _ _ written absent =>
    obtain ⟨row, member, same⟩ := fits.ownerRow written
    exact absent row member same

/-- A change that fits writes no cell of the new row. -/
theorem Fits.writeTo_new (fits : change.Fits rows) (key : Key) :
    change.writeTo (.unlinked change.id key) = .unlinked change.id key := by
  have generator : change.id = change.generatorId → change.generator = none := by
    intro same
    cases written : change.generator with
    | none => rfl
    | some generator =>
      obtain ⟨row, member, there⟩ := fits.generatorRow (Option.isSome_of_eq_some written)
      exact absurd (there.trans same.symm) (fits.next.ne member)
  have owner : change.id = change.ownerId → change.owner = none := by
    intro same
    cases written : change.owner with
    | none => rfl
    | some owner =>
      obtain ⟨row, member, there⟩ := fits.ownerRow (Option.isSome_of_eq_some written)
      exact absurd (there.trans same.symm) (fits.next.ne member)
  simp only [writeTo, Element.unlinked, Option.or_none, Element.mk.injEq, true_and]
  exact ⟨ite_eq_right_iff.mpr generator, ite_eq_right_iff.mpr owner⟩

end Change

namespace RowTable

variable {t t' : RowTable} {id : Position} {change : Change} {key : Key}

theorem mem_rows_iff {row : Element} : row ∈ t.rows ↔ row ∈ t.newestFirst :=
  List.mem_reverse

theorem contains_iff : t.contains id = true ↔ ∃ row ∈ t.rows, row.id = id := by
  simp [contains, mem_rows_iff]

/-- The newest row has the highest id. -/
theorem next?_eq_some_iff : t.next? = some id ↔ IsNextId t.rows id := by
  have sorted := t.sorted
  simp only [next?, IsNextId, rows, List.mem_reverse, List.reverse_eq_nil_iff]
  cases elements : t.newestFirst with
  | nil => simp [eq_comm]
  | cons last older =>
    rw [elements] at sorted
    have below := (List.pairwise_cons.mp sorted).1
    have top : ∀ row ∈ last :: older, row.id ≤ last.id := by
      intro row member
      rcases List.mem_cons.mp member with rfl | member
      · exact UInt64.le_refl _
      · exact UInt64.le_of_lt (below row member)
    rw [Position.next?_eq_some_iff]
    constructor
    · intro next
      exact .inr ⟨last, List.mem_cons_self, top, next⟩
    · rintro (⟨empty, _⟩ | ⟨highest, member, above, next⟩)
      · cases empty
      · have same : highest.id = last.id :=
          UInt64.le_antisymm (top highest member) (above last List.mem_cons_self)
        rw [next, same]

/-! ## What is written -/

theorem newestFirst_writeGenerator_eq_map (t : RowTable) (id : Position)
    (generator : Option Generator) :
    (t.writeGenerator id generator).newestFirst = t.newestFirst.map fun row =>
      { row with
        generator := if row.id = id then generator.or row.generator else row.generator } := by
  cases generator with
  | none => simp [writeGenerator]
  | some generator =>
    refine List.map_congr_left fun row _ => ?_
    split <;> rfl

theorem newestFirst_writeOwner_eq_map (t : RowTable) (id : Position) (owner : Option Owner) :
    (t.writeOwner id owner).newestFirst = t.newestFirst.map fun row =>
      { row with owner := if row.id = id then owner.or row.owner else row.owner } := by
  cases owner with
  | none => simp [writeOwner]
  | some owner =>
    refine List.map_congr_left fun row _ => ?_
    split <;> rfl

/-- **What an accepted change does to the rows.** -/
theorem exists_apply_of_fits (fits : change.Fits t.rows) (key : Key) :
    ∃ t', t.apply change key = .ok t' ∧
      t'.rows = t.rows.map change.writeTo ++ [.unlinked change.id key] := by
  have next := next?_eq_some_iff.mpr fits.next
  have present : (change.generator.isSome && !t.contains change.generatorId) ≠ true := by
    simpa [contains_iff] using fits.generatorRow
  have present' : (change.owner.isSome && !t.contains change.ownerId) ≠ true := by
    simpa [contains_iff] using fits.ownerRow
  refine ⟨_, by rw [apply_eq, if_pos next, if_neg present, if_neg present'], ?_⟩
  have grown : (t.overwrite (.unlinked change.id key)).newestFirst =
      .unlinked change.id key :: t.newestFirst := newestFirst_overwrite_of_next next
  rw [rows, newestFirst_writeOwner_eq_map, newestFirst_writeGenerator_eq_map, List.map_map, grown,
    List.map_cons, List.reverse_cons, ← List.map_reverse]
  exact congrArg (fun new => t.rows.map change.writeTo ++ [new]) (fits.writeTo_new key)

/-- **What speaks against a change is what is answered.** -/
theorem apply_of_refused {token : Token} {e : StoreError}
    (refused : change.Refused token (some t.rows) e) (key : Key) :
    ∃ reason, t.apply change key = .error reason ∧ Ledger.refusal token reason = e := by
  cases refused with
  | notNext other =>
    exact ⟨_, apply_of_next?_ne fun next => other (next?_eq_some_iff.mp next), rfl⟩
  | generatorRow next written absent =>
    have missing : (change.generator.isSome && !t.contains change.generatorId) = true := by
      simpa [written, ← Bool.not_eq_true, contains_iff] using absent
    refine ⟨.missingRow change.generatorId, ?_, rfl⟩
    rw [apply_eq, if_pos (next?_eq_some_iff.mpr next), if_pos missing]
  | ownerRow next present written absent =>
    have there : (change.generator.isSome && !t.contains change.generatorId) ≠ true := by
      simpa [contains_iff] using present
    have missing : (change.owner.isSome && !t.contains change.ownerId) = true := by
      simpa [written, ← Bool.not_eq_true, contains_iff] using absent
    refine ⟨.missingRow change.ownerId, ?_, rfl⟩
    rw [apply_eq, if_pos (next?_eq_some_iff.mpr next), if_neg there, if_pos missing]

end RowTable

namespace Ledger

variable {l : Ledger} {token : Token} {change : Change} {e : StoreError}

/-- The rows of a token, if there is a table for them. -/
def rows? (l : Ledger) : Option (List Element) := l.table.map RowTable.rows

theorem loadRows_eq_ok_iff_rows? {rows : List Element} :
    l.loadRows token = .ok rows ↔ l.rows? = some rows := by
  unfold loadRows getTable rows?
  cases l.table with
  | none => simp [Except.map]
  | some t => simp [Except.map]

theorem applyChange_of_refused (refused : change.Refused token l.rows? e) (key : Key) :
    l.applyChange token change key = ⟨[], .error e⟩ := by
  cases table : l.table with
  | none =>
    rw [rows?, table] at refused
    cases refused
    rw [applyChange_eq, getTable, table]
    rfl
  | some t =>
    rw [rows?, table] at refused
    obtain ⟨reason, applied, rfl⟩ := RowTable.apply_of_refused refused key
    exact applyChange_of_error table applied

theorem exists_applyChange_of_fits {rows : List Element} (stored : l.rows? = some rows)
    (fits : change.Fits rows) (key : Key) :
    ∃ t', l.applyChange token change key =
        ⟨[change.event token], .ok { l with table := some t' }⟩ ∧
      t'.rows = rows.map change.writeTo ++ [.unlinked change.id key] := by
  obtain ⟨t, table, rfl⟩ := Option.map_eq_some_iff.mp stored
  obtain ⟨t', applied, written⟩ := RowTable.exists_apply_of_fits fits key
  exact ⟨t', applyChange_of_ok table applied, written⟩

/-- Either something speaks against a change, or there are rows that it fits. -/
theorem exists_refused_or_fits (l : Ledger) (token : Token) (change : Change) :
    (∃ e, change.Refused token l.rows? e) ∨ ∃ rows, l.rows? = some rows ∧ change.Fits rows := by
  cases stored : l.rows? with
  | none => exact .inl ⟨_, .noTable⟩
  | some rows =>
    rcases change.exists_refused_or_fits token rows with refused | fits
    · exact .inl refused
    · exact .inr ⟨rows, rfl, fits⟩

end Ledger

namespace Store

/-- **A change is carried out in whole or not at all.**  Whatever a store holds, and
whatever a change and a key are:

* the change is refused with an answer exactly if that is what speaks against it, and
  then the store is as it was before;
* otherwise it is carried out.  Then the rows of the token are those from before, each
  with the cells that the change writes to it, and after them one for the key without any
  commitments; registrations, issued keys and the rows of all other tokens are as
  before. -/
theorem respond_applyChange_decided (s : Store) (token : Token) (change : Change) (key : Key) :
    let response := (s.respond (.applyChange token change key)).1
    let s' := (s.respond (.applyChange token change key)).2
    (∀ e, response.result = .error e ↔ change.Refused token (s.ledger token).rows? e) ∧
    (∀ e, response.result = .error e → s' = s) ∧
    ((∀ e, ¬change.Refused token (s.ledger token).rows? e) →
      response.result = .ok .done ∧
        ∃ rows, s.loadRows token = .ok rows ∧
          s'.loadRows token = .ok (rows.map change.writeTo ++ [.unlinked change.id key]) ∧
          s.SameButRows token s') := by
  intro response s'
  have answered : response.result =
      ((s.ledger token).applyChange token change key).result.map fun _ => .done := by
    simp only [response, respond_applyChange]
  have left : s' = s.settled token ((s.ledger token).applyChange token change key).result := by
    simp only [s', respond_applyChange]
  rcases (s.ledger token).exists_refused_or_fits token change with
    ⟨e, refused⟩ | ⟨rows, stored, fits⟩
  case inl =>
    have outcome := Ledger.applyChange_of_refused refused key
    rw [outcome] at answered left
    rw [answered]
    refine ⟨fun e' => ⟨fun failed => ?_, fun refused' => ?_⟩, fun _ _ => left,
      fun unopposed => absurd refused (unopposed e)⟩
    · obtain rfl := Except.error.inj failed
      exact refused
    · have same := (Ledger.applyChange_of_refused refused' key).symm.trans outcome
      obtain rfl := Except.error.inj (congrArg Logged.result same)
      rfl
  case inr =>
    obtain ⟨t', applied, written⟩ := Ledger.exists_applyChange_of_fits stored fits key
    rw [applied] at answered left
    rw [answered, stored]
    refine ⟨fun e => ⟨fun failed => ?_, fun refused => absurd refused fits.not_refused⟩,
      fun e failed => ?_, fun _ => ⟨rfl, rows, ?_, ?_, ?_⟩⟩
    · cases failed
    · cases failed
    · exact Ledger.loadRows_eq_ok_iff_rows?.mpr stored
    · rw [left, settled, loadRows, ledger_set, if_pos rfl, Ledger.loadRows_eq_ok_iff_rows?,
        ← written]
      rfl
    · rw [left]
      exact s.sameButRows_set token t'

end Store

end Provenance
