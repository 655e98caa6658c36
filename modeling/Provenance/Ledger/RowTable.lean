import Provenance.Element
import Provenance.Procedure
set_option autoImplicit false

/-!
# Row tables

The rows of one token as a store keeps them: elements with pairwise different
ids, the greatest first.  The order is part of the type, gaps between the ids are
not ruled out.

`RowTable.InPlace.apply` carries out a change.  The new row has to extend the table
without a gap, or the rows could not be read back as a chain, and the rows whose
cells the change writes have to be there already.  `RowTable.overwrite` puts a row
in place and checks nothing.
-/

namespace Provenance

/-- Elements with pairwise different ids, the greatest first. -/
structure RowTable where
  newestFirst : List Element
  sorted : newestFirst.Pairwise fun later earlier => earlier.id < later.id
  deriving DecidableEq

namespace RowTable

/-- The table without rows. -/
def empty : RowTable := ⟨[], .nil⟩

/-- The rows in the order of their ids. -/
def rows (t : RowTable) : List Element := t.newestFirst.reverse

/-- The number of rows. -/
def count (t : RowTable) : Nat := t.newestFirst.length

/-- Whether a row has this id. -/
def contains (t : RowTable) (id : Position) : Bool :=
  t.newestFirst.any fun row => row.id == id

/-- The id that extends the table without a gap, if there is one. -/
def next? (t : RowTable) : Option Position :=
  match t.newestFirst with
  | [] => some 0
  | last :: _ => last.id.next?

/-! ## Writing rows -/

/-- The rows with one put in its place, instead of one of the same id. -/
def place (row : Element) : List Element → List Element
  | [] => [row]
  | first :: older =>
    if first.id < row.id then row :: first :: older
    else if first.id = row.id then row :: older
    else first :: place row older

/-- A row that was placed is there, and no other row is new. -/
theorem mem_of_mem_place {row e : Element} {rows : List Element} (h : e ∈ place row rows) :
    e = row ∨ e ∈ rows := by
  induction rows with
  | nil => simpa [place] using h
  | cons first older ih =>
    simp only [place] at h
    split at h
    · simpa using h
    · split at h
      · rcases List.mem_cons.mp h with h | h
        · exact .inl h
        · exact .inr (List.mem_cons_of_mem _ h)
      · rcases List.mem_cons.mp h with h | h
        · exact .inr (h ▸ List.mem_cons_self)
        · exact (ih h).imp_right (List.mem_cons_of_mem _)

/-- Placing a row keeps the order. -/
theorem sorted_place {row : Element} {rows : List Element}
    (h : rows.Pairwise fun later earlier => earlier.id < later.id) :
    (place row rows).Pairwise fun later earlier => earlier.id < later.id := by
  induction rows with
  | nil => exact List.pairwise_singleton _ _
  | cons first older ih =>
    obtain ⟨below, rest⟩ := List.pairwise_cons.mp h
    simp only [place]
    split
    case isTrue less =>
      refine List.pairwise_cons.mpr ⟨fun e he => ?_, h⟩
      rcases List.mem_cons.mp he with rfl | he
      · exact less
      · exact UInt64.lt_trans (below e he) less
    case isFalse notLess =>
      split
      case isTrue same =>
        exact List.pairwise_cons.mpr ⟨fun e he => same ▸ below e he, rest⟩
      case isFalse differs =>
        refine List.pairwise_cons.mpr ⟨fun e he => ?_, ih rest⟩
        rcases mem_of_mem_place he with placed | he
        · rw [placed]
          have : first.id.toNat ≠ row.id.toNat := fun h => differs (UInt64.toNat_inj.mp h)
          rw [UInt64.lt_iff_toNat_lt] at notLess ⊢
          omega
        · exact below e he

/-- The table with a row put in place. -/
def overwrite (row : Element) (t : RowTable) : RowTable :=
  ⟨place row t.newestFirst, sorted_place t.sorted⟩

/-! ## Writing cells -/

/-- The table with a generator written to the row of an id. -/
def writeGenerator (id : Position) (generator : Option Generator) (t : RowTable) : RowTable :=
  match generator with
  | none => t
  | some _ =>
    ⟨t.newestFirst.map fun row => if row.id = id then { row with generator } else row,
      List.Pairwise.map _ (fun a b h => by split <;> split <;> exact h) t.sorted⟩

/-- The table with an owner written to the row of an id. -/
def writeOwner (id : Position) (owner : Option Owner) (t : RowTable) : RowTable :=
  match owner with
  | none => t
  | some _ =>
    ⟨t.newestFirst.map fun row => if row.id = id then { row with owner } else row,
      List.Pairwise.map _ (fun a b h => by split <;> split <;> exact h) t.sorted⟩

/-! ## Applying changes -/

/-- Why a change is not applied. -/
inductive Refusal where
  /-- The new row does not extend the table. -/
  | notNext (id : Position)
  /-- A row that the change writes to is not there. -/
  | missingRow (id : Position)
  deriving DecidableEq, Repr, Inhabited

/-- Carries out a change for a key.  Everything is checked before anything is
written. -/
def InPlace.apply (change : Change) (key : Key) : Procedure RowTable Refusal Unit := do
  let t ← .get
  .check (t.next? = some change.id) (.notNext change.id)
  .check (change.generator.isSome → t.contains change.generatorId)
    (.missingRow change.generatorId)
  .check (change.owner.isSome → t.contains change.ownerId) (.missingRow change.ownerId)
  .write (overwrite (.unlinked change.id key))
  .write (writeGenerator change.generatorId change.generator)
  .write (writeOwner change.ownerId change.owner)

/-- The table with a change carried out for a key. -/
def apply (t : RowTable) (change : Change) (key : Key) : Except Refusal RowTable :=
  ((InPlace.apply change key).outcome t).result.map Prod.snd

end RowTable

end Provenance
