import Provenance.Key
set_option autoImplicit false

/-!
# Records

Beside the history of a token a store keeps how the token was registered, and
which keys were issued for it to whom.
-/

namespace Provenance

/-- The name of someone who can hold a token. -/
structure Holder where
  name : String
  deriving DecidableEq, Repr, Inhabited

namespace Holder

instance : Ord Holder := ⟨fun a b => compare a.name b.name⟩

/-- The holder as messages show it. -/
def label (h : Holder) : String :=
  "HolderId(" ++ h.name ++ ")"

end Holder

/-- The registration of a token: its title and the data it stands for. -/
structure TokenRecord where
  token : Token
  title : String
  data : List UInt8
  deriving DecidableEq, Repr, Inhabited

/-- The issue of a key: for which position of which token, and to whom. -/
structure KeyRecord where
  token : Token
  id : Position
  key : Key
  holder : Holder
  deriving DecidableEq, Repr, Inhabited

end Provenance
