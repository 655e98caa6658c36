import Provenance.Chain.Basic
set_option autoImplicit false

/-!
# Cells

A cell is one hash of one row: a key, a generator or an owner, at an index
counted from the first row.  `Cell.linked` lists the cells that some link of a
chain constrains, and `Cell.forge` replaces one by an unrelated hash.
-/

namespace Provenance

/-- One hash of the row at an index. -/
inductive Cell where
  | key (index : Nat)
  | generator (index : Nat)
  | owner (index : Nat)
  deriving DecidableEq, Repr, Inhabited

namespace Cell

/-- The cells that the links of a chain of the given length constrain: every key
but the first, every generator but the last, every owner but the last two. -/
def linked (length : Nat) : List Cell :=
  (List.range (length - 1)).map (fun i => .key (i + 1))
    ++ (List.range (length - 1)).map .generator
    ++ (List.range (length - 2)).map .owner

/-- The row that the cell is in. -/
def index : Cell → Nat
  | .key i | .generator i | .owner i => i

/-- A hash that is unrelated to a text. -/
def forgery (text : String) : String :=
  hash ("forged:" ++ text)

/-- The row with the cell replaced by a forgery; a missing hash counts as no text. -/
def forgeIn (cell : Cell) (row : Element) : Element :=
  match cell with
  | .key _ => { row with key := ⟨forgery row.key.text⟩ }
  | .generator _ =>
    { row with generator := some ⟨forgery ((row.generator.map Generator.text).getD "")⟩ }
  | .owner _ => { row with owner := some ⟨forgery ((row.owner.map Owner.text).getD "")⟩ }

/-- The rows with the cell forged, if it is in one of them. -/
def forge (cell : Cell) (rows : List Element) : Option (List Element) :=
  if cell.index < rows.length then some (rows.modify cell.index cell.forgeIn)
  else none

end Cell

end Provenance
