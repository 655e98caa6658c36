set_option autoImplicit false

/-!
# JSON values

A number that is written as an integer is kept as that integer, of any size.  Any
other number, one with a fraction or an exponent, and minus zero, is kept as it is
written: no value of this library is written in such a way, so nothing is ever
calculated with it.
-/

namespace Provenance

/-- A JSON value. -/
inductive Json where
  | null
  | bool (value : Bool)
  | integer (value : Int)
  /-- A number that is not written as an integer. -/
  | decimal (literal : String)
  | string (value : String)
  | array (items : List Json)
  | object (members : List (String × Json))
  deriving Repr, Inhabited

namespace Json

/-- The value of the last member of that name. -/
def lastNamed? (name : String) : List (String × Json) → Option Json
  | [] => none
  | (other, value) :: rest =>
    match lastNamed? name rest with
    | some later => some later
    | none => if other = name then some value else none

/-- The member of an object of that name, if it is there. -/
def member? (name : String) : Json → Option Json
  | .object members => lastNamed? name members
  | _ => none

/-- The values that stand for the given fields, one for each.  An object holds
them by name, a missing one counts as `null`, and other members do not matter.  An
array holds exactly these, in their order. -/
def fields? (names : List String) : Json → Option (List Json)
  | .object members => some (names.map fun name => (lastNamed? name members).getD .null)
  | .array items => if items.length = names.length then some items else none
  | _ => none

end Json

end Provenance
