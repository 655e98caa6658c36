import Provenance.Sample.Recipe
import Provenance.Store.Basic
set_option autoImplicit false

/-!
# Fixtures

A fixture is some data and a store to try things on.  It builds chains of any
number of transfers and writes whole chains into its store, row by row.
-/

namespace Provenance

/-- The passphrase of the owner after `n` others. -/
def ownerPassphrase (n : Nat) : String := "owner-" ++ n.repr

/-- The first `count` holders. -/
def numberedHolders (count : Nat) : List Holder :=
  (List.range count).map fun n => ⟨"holder-" ++ n.repr⟩

/-- Some data and a store. -/
structure Fixture where
  data : List UInt8
  store : Store := {}

namespace Fixture

/-- The token of the data. -/
def token (f : Fixture) : Token := .ofData f.data

/-- The chain that went through the given number of owners. -/
def buildChain (f : Fixture) (transfers : Nat) : Except ChainError Chain :=
  Recipe.handOverAll (.empty f.token (.ofNat transfers))
    ((List.range transfers).map fun n => .current (ownerPassphrase n))

/-- Registers the token of a chain and writes its rows one by one. -/
def persist (f : Fixture) (chain : Chain) : Logged StoreError (TokenRecord × Fixture) := do
  let record : TokenRecord := { token := chain.token, title := "fixture", data := f.data }
  let (_, store) ← f.store.insertToken record
  return (record,
    { f with store := chain.elements.foldl (·.overwriteRow chain.token ·) store })

end Fixture

end Provenance
