import Provenance.Chain.Cell
set_option autoImplicit false

/-!
# Edits of rows

Someone who can write to a store can do more to the rows of a token than add to
them.  An edit is one such interference: a cell written, a row taken out, two
rows exchanged, a cell forged.  An edit of rows that are not there does nothing
and is told apart.
-/

namespace Provenance

/-- One interference with the rows of a token. -/
inductive Edit where
  | setId (index : Nat) (id : Position)
  | setKey (index : Nat) (key : Key)
  | setGenerator (index : Nat) (generator : Option Generator)
  | setOwner (index : Nat) (owner : Option Owner)
  | remove (index : Nat)
  | swap (first second : Nat)
  | forge (cell : Cell)
  deriving DecidableEq, Repr, Inhabited

namespace Edit

/-- The rows with one of them changed, if it is there. -/
def change (index : Nat) (f : Element → Element) (rows : List Element) :
    Option (List Element) :=
  if index < rows.length then some (rows.modify index f) else none

/-- The rows after the edit, if the rows it names are there. -/
def rowsAfter? (rows : List Element) : Edit → Option (List Element)
  | .setId index id => change index (fun row => { row with id }) rows
  | .setKey index key => change index (fun row => { row with key }) rows
  | .setGenerator index generator => change index (fun row => { row with generator }) rows
  | .setOwner index owner => change index (fun row => { row with owner }) rows
  | .remove index => if index < rows.length then some (rows.eraseIdx index) else none
  | .swap first second =>
    match rows[first]?, rows[second]? with
    | some a, some b => some ((rows.set first b).set second a)
    | _, _ => none
  | .forge cell => cell.forge rows

end Edit

end Provenance
