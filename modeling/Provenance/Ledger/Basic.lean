import Provenance.Ledger.RowTable
import Provenance.Store.Error
set_option autoImplicit false

/-!
# Ledgers

The ledger of a token is everything that a store keeps about it: how it was
registered, which keys were issued for it, and its rows.  What a store does to
one token is done to its ledger and to no other, so the operations are defined
here, in place (`Ledger.InPlace`), and a store carries them out on the ledger of
the token.

A token gets its row table when it is registered.  Rows can be forced upon a
token that is not registered; registering it starts with no rows again.
-/

namespace Provenance

/-- What a store keeps about one token. -/
structure Ledger where
  /-- The registration, once there is one. -/
  record : Option TokenRecord := none
  /-- The keys issued, the last one first. -/
  issued : List KeyRecord := []
  /-- The rows, once there is a table for them. -/
  table : Option RowTable := none
  deriving DecidableEq

instance : Inhabited Ledger := ⟨{}⟩

/-- Whether a registration was the first one of its token. -/
inductive Registration where
  | inserted
  | alreadyExists
  deriving DecidableEq, Repr, Inhabited

namespace Ledger

/-! ## Registration -/

/-- Registers the token, with no rows.  A second registration changes nothing. -/
def InPlace.register (record : TokenRecord) : Procedure Ledger StoreError Registration := do
  let l ← .get
  if l.record.isSome then
    return .alreadyExists
  else
    .write fun l => { l with record := some record }
    .write fun l => { l with table := some .empty }
    .emit (.tokenStored record.token record.title)
    return .inserted

/-- What comes of a registration. -/
def register (record : TokenRecord) (l : Ledger) : Logged StoreError (Registration × Ledger) :=
  (InPlace.register record).outcome l

/-! ## Keys -/

/-- Adds an issued key to those of a registered token. -/
def InPlace.insertKey (record : KeyRecord) : Procedure Ledger StoreError Unit := do
  let l ← .get
  .check l.record.isSome (.unknownToken record.token)
  .write fun l => { l with issued := record :: l.issued }

/-- The ledger with an issued key. -/
def insertKey (record : KeyRecord) (l : Ledger) : Except StoreError Ledger :=
  ((InPlace.insertKey record).outcome l).result.map Prod.snd

/-- Of keys issued one after another, the last one first, the one for the greatest
position.  Of several for one position the last one counts. -/
def latest? : List KeyRecord → Option KeyRecord
  | [] => none
  | record :: earlier =>
    match latest? earlier with
    | none => some record
    | some best => if best.id ≤ record.id then some record else some best

/-- The key that a holder would use for a transfer. -/
def latestKey? (l : Ledger) (holder : Holder) : Option KeyRecord :=
  latest? (l.issued.filter fun record => record.holder = holder)

/-- Who a key was issued to, the last time it was issued. -/
def holderOf? (l : Ledger) (key : Key) : Option Holder :=
  (l.issued.find? fun record => record.key = key).map KeyRecord.holder

/-! ## Rows -/

/-- The table of a token that has one. -/
def getTable (token : Token) (l : Ledger) : Except StoreError RowTable :=
  match l.table with
  | none => .error (.unknownToken token)
  | some table => .ok table

/-- The number of rows. -/
def countRows (token : Token) (l : Ledger) : Except StoreError Nat :=
  (l.getTable token).map RowTable.count

/-- The rows in the order of their ids. -/
def loadRows (token : Token) (l : Ledger) : Except StoreError (List Element) :=
  (l.getTable token).map RowTable.rows

/-- The chain that the rows form. -/
def loadChain (token : Token) (l : Ledger) : Except StoreError Chain :=
  match l.loadRows token with
  | .error error => .error error
  | .ok rows => (Chain.ofElements token rows).mapError .chain

/-- The refusal of a change, as the store of a token says it. -/
def refusal (token : Token) : RowTable.Refusal → StoreError
  | .notNext id => .conflict token id
  | .missingRow id => .unknownRow token id

/-- A procedure on the table of a token that has one. -/
def InPlace.onTable {α : Type} (token : Token) (x : Procedure RowTable StoreError α) :
    Procedure Ledger StoreError α :=
  ⟨fun l =>
    match l.table with
    | none => (.fail (.unknownToken token), l)
    | some table => ((x.run table).1, { l with table := some (x.run table).2 })⟩

/-- Carries out a change for a key. -/
def InPlace.applyChange (token : Token) (change : Change) (key : Key) :
    Procedure Ledger StoreError Unit := do
  onTable token ((RowTable.InPlace.apply change key).mapError (refusal token))
  .emit (.changeApplied token change.id change.generatorId
    (change.owner.map fun _ => change.ownerId))

/-- What comes of a change. -/
def applyChange (token : Token) (change : Change) (key : Key) (l : Ledger) :
    Logged StoreError Ledger :=
  Prod.snd <$> (InPlace.applyChange token change key).outcome l

/-- Puts a row in place, in a new table if there is none. -/
def overwriteRow (row : Element) (l : Ledger) : Ledger :=
  { l with table := some ((l.table.getD .empty).overwrite row) }

end Ledger

end Provenance
