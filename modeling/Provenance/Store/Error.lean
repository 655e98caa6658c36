import Provenance.Chain.Basic
set_option autoImplicit false

/-!
# What a store refuses

A store refuses to work on a token or a row that it does not have, a change that
does not extend the rows of its token, and rows that form no chain.
-/

namespace Provenance

/-- Why a store refuses. -/
inductive StoreError where
  /-- The store does not know the token. -/
  | unknownToken (token : Token)
  /-- The token has no row of this id. -/
  | unknownRow (token : Token) (id : Position)
  /-- The row of this id is not the next one of the token. -/
  | conflict (token : Token) (id : Position)
  /-- The rows of a token are no chain. -/
  | chain (error : ChainError)
  deriving DecidableEq, Repr, Inhabited

/-- What is said about the error. -/
def StoreError.message : StoreError → String
  | .unknownToken token => "not found: token " ++ token.text
  | .unknownRow token id =>
    "not found: row " ++ id.toNat.repr ++ " of token " ++ token.text
  | .conflict token id =>
    "conflict on token " ++ token.text ++ ": row " ++ id.toNat.repr
      ++ " is not the next row"
  | .chain error => "invalid data: " ++ error.message

end Provenance
