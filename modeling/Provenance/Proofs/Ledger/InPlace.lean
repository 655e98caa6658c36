import Provenance.Ledger.Basic
import Provenance.Proofs.Procedure
set_option autoImplicit false

/-!
# A ledger that is worked on in place

A store changes its rows, its registrations and its issued keys write by write.  Each of
these operations checks before it writes (`allOrNothing_apply`, `allOrNothing_register`,
`allOrNothing_insertKey`, `allOrNothing_applyChange`), and what comes of it is told here at
once: the ledger with all of the writes done, or the first check that fails.
-/

namespace Provenance

open Procedure

namespace RowTable

variable {t : RowTable} {change : Change} {key : Key} {row : Element}

/-! ## Changes of a table -/

theorem allOrNothing_apply (change : Change) (key : Key) :
    (InPlace.apply change key).AllOrNothing := by
  refine .after_readsOnly (fun t => ?_) (readsOnly_read _)
  refine .after_readsOnly (fun _ => ?_) (readsOnly_check _ _)
  refine .after_readsOnly (fun _ => ?_) (readsOnly_check _ _)
  refine .after_readsOnly (fun _ => ?_) (readsOnly_check _ _)
  exact ((neverFails_write _).bind fun _ => (neverFails_write _).bind fun _ =>
    neverFails_write _).allOrNothing

/-- A row with the next id becomes the newest one. -/
theorem newestFirst_overwrite_of_next (next : t.next? = some row.id) :
    (t.overwrite row).newestFirst = row :: t.newestFirst := by
  obtain ⟨rows, sorted⟩ := t
  cases rows with
  | nil => rfl
  | cons last older => exact if_pos (Position.lt_of_next? next)

/-- The checks of a change, and the table with its writes done. -/
theorem apply_eq (t : RowTable) (change : Change) (key : Key) :
    t.apply change key =
      if t.next? = some change.id then
        if change.generator.isSome && !t.contains change.generatorId then
          .error (.missingRow change.generatorId)
        else if change.owner.isSome && !t.contains change.ownerId then
          .error (.missingRow change.ownerId)
        else
          .ok (((t.overwrite (.unlinked change.id key)).writeGenerator
            change.generatorId change.generator).writeOwner change.ownerId change.owner)
      else .error (.notNext change.id) := by
  have there (cell : Bool) (id : Position) :
      (cell = true → t.contains id = true) ↔ ¬(cell && !t.contains id) = true := by
    cases cell <;> simp
  simp only [apply, InPlace.apply, outcome_bind, outcome_get, outcome_check, outcome_write,
    pure_bind, there]
  by_cases next : t.next? = some change.id
  · rw [if_pos next, if_pos next]
    by_cases missing : (change.generator.isSome && !t.contains change.generatorId) = true
    · simp [missing, Except.map]
    · by_cases missing' : (change.owner.isSome && !t.contains change.ownerId) = true
      · simp [missing, missing', Except.map]
      · simp [missing, missing', Except.map]
  · rw [if_neg next, if_neg next]
    rfl

theorem outcome_apply (t : RowTable) (change : Change) (key : Key) :
    (InPlace.apply change key).outcome t = Prod.mk () <$> .ofExcept (t.apply change key) := by
  refine outcome_of_quiet t ?_
  simp only [InPlace.apply, outcome_bind, outcome_get, outcome_check, outcome_write, pure_bind]
  split
  · split
    · split <;> rfl
    · rfl
  · rfl

end RowTable

namespace Ledger

variable {token : Token} {change : Change} {key : Key}

/-! ## Registration and keys -/

theorem allOrNothing_register (record : TokenRecord) : (InPlace.register record).AllOrNothing := by
  refine .after_readsOnly (fun l => ?_) (readsOnly_read _)
  split
  · exact (readsOnly_pure _).allOrNothing
  · exact ((neverFails_write _).bind fun _ => (neverFails_write _).bind fun _ =>
      (neverFails_emit _).bind fun _ => neverFails_pure _).allOrNothing

/-- A registration that was not the first one has written nothing. -/
theorem run_register_of_alreadyExists {record : TokenRecord} {l : Ledger}
    (answered : ((InPlace.register record).run l).1.result = .ok .alreadyExists) :
    ((InPlace.register record).run l).2 = l := by
  obtain ⟨registration, issued, table⟩ := l
  cases registration with
  | some registration => rfl
  | none => cases answered

theorem register_eq (record : TokenRecord) (l : Ledger) :
    l.register record =
      if l.record.isSome then pure (.alreadyExists, l)
      else do
        .emit (.tokenStored record.token record.title)
        return (.inserted, { l with record := some record, table := some .empty }) := by
  simp only [register, InPlace.register, outcome_bind, outcome_get, pure_bind]
  split <;> rfl

theorem allOrNothing_insertKey (record : KeyRecord) :
    (InPlace.insertKey record).AllOrNothing := by
  refine .after_readsOnly (fun l => ?_) (readsOnly_read _)
  exact .after_readsOnly (fun _ => (neverFails_write _).allOrNothing) (readsOnly_check _ _)

theorem outcome_insertKey (record : KeyRecord) (l : Ledger) :
    (InPlace.insertKey record).outcome l = Prod.mk () <$> .ofExcept (l.insertKey record) := by
  refine outcome_of_quiet l ?_
  simp only [InPlace.insertKey, outcome_bind, outcome_get, outcome_check, pure_bind]
  split <;> rfl

theorem insertKey_eq (record : KeyRecord) (l : Ledger) :
    l.insertKey record =
      if l.record.isSome then .ok { l with issued := record :: l.issued }
      else .error (.unknownToken record.token) := by
  simp only [insertKey, InPlace.insertKey, outcome_bind, outcome_get, outcome_check, pure_bind]
  split <;> rfl

/-! ## Changes -/

theorem allOrNothing_onTable {α : Type} {x : Procedure RowTable StoreError α}
    (whole : x.AllOrNothing) (token : Token) : (InPlace.onTable token x).AllOrNothing := by
  intro l e failed
  obtain ⟨record, issued, table⟩ := l
  cases table with
  | none => rfl
  | some table => exact congrArg (Ledger.mk record issued <| some ·) (whole table e failed)

theorem outcome_onTable {α : Type} (token : Token) (x : Procedure RowTable StoreError α)
    (l : Ledger) :
    (InPlace.onTable token x).outcome l = do
      let table ← .ofExcept (l.getTable token)
      let (a, table) ← x.outcome table
      return (a, { l with table := some table }) := by
  obtain ⟨record, issued, table⟩ := l
  cases table with
  | none => rfl
  | some table =>
    exact outcome_on (fun _ => table) (fun _ table => Ledger.mk record issued (some table)) x
      (Ledger.mk record issued (some table))

theorem allOrNothing_applyChange (token : Token) (change : Change) (key : Key) :
    (InPlace.applyChange token change key).AllOrNothing :=
  .then_neverFails
    (allOrNothing_onTable ((RowTable.allOrNothing_apply change key).mapError _) token)
    fun _ => neverFails_emit _

theorem outcome_applyChange (token : Token) (change : Change) (key : Key) (l : Ledger) :
    (InPlace.applyChange token change key).outcome l =
      Prod.mk () <$> l.applyChange token change key := by
  rw [applyChange, Functor.map_map]
  exact (id_map _).symm

theorem applyChange_eq (token : Token) (change : Change) (key : Key) (l : Ledger) :
    l.applyChange token change key = do
      let table ← .ofExcept (l.getTable token)
      let table ← .ofExcept ((table.apply change key).mapError (refusal token))
      .emit (.changeApplied token change.id change.generatorId
        (change.owner.map fun _ => change.ownerId))
      return { l with table := some table } := by
  simp only [applyChange, InPlace.applyChange, outcome_bind, outcome_onTable, outcome_mapError,
    RowTable.outcome_apply]
  cases l.getTable token with
  | error e => rfl
  | ok table =>
    simp only [Logged.ofExcept_ok, Logged.ok_bind]
    cases table.apply change key with
    | error refusal => rfl
    | ok table => rfl

end Ledger

end Provenance
