import Provenance.Chain.Basic
set_option autoImplicit false

/-!
# Recipes for chains

A recipe says how a chain comes about: from which data, with or without a first
holder, and by which passphrases it is handed over.
-/

namespace Provenance

/-- How a chain starts. -/
inductive Start where
  /-- With a holder who has this passphrase. -/
  | held (passphrase : String)
  /-- Without a holder. -/
  | vacant
  deriving DecidableEq, Repr, Inhabited

/-- Which key a chain is handed over to. -/
inductive KeySource where
  /-- The key of a passphrase for the position of the last element. -/
  | current (passphrase : String)
  /-- The key of a passphrase for a given position. -/
  | fixed (position : Position) (passphrase : String)
  deriving DecidableEq, Repr, Inhabited

/-- How a chain comes about. -/
structure Recipe where
  data : List UInt8
  start : Start
  transfers : List KeySource
  deriving DecidableEq, Repr, Inhabited

/-- The key of a source for a chain. -/
def Chain.keyFrom (c : Chain) : KeySource → Key
  | .current passphrase => c.key passphrase
  | .fixed position passphrase => c.keyAt position passphrase

namespace Recipe

/-- The chain before the first transfer. -/
def initial (r : Recipe) : Chain :=
  match r.start with
  | .held passphrase => .create r.data passphrase
  | .vacant => .empty (.ofData r.data) 0

/-- The chain handed over to the key of each source in turn. -/
def handOverAll (c : Chain) (sources : List KeySource) : Except ChainError Chain :=
  sources.foldlM (fun c source => (c.handOver (c.keyFrom source)).map Prod.fst) c

/-- The chain of the recipe. -/
def build (r : Recipe) : Except ChainError Chain :=
  handOverAll r.initial r.transfers

/-- The recipe that hands over to each passphrase at the position of the last
element, with a first holder if there is a passphrase for one. -/
def ofPassphrases (data : List UInt8) (bootstrap : Option String)
    (passphrases : List String) : Recipe :=
  { data
    start := match bootstrap with
      | some passphrase => .held passphrase
      | none => .vacant
    transfers := passphrases.map .current }

end Recipe

end Provenance
