import Provenance.Chain.BrokenLink
import Provenance.Store.Error
import Provenance.Record
set_option autoImplicit false

/-!
# What a registry refuses

The errors of a registry.  Messages show tokens abbreviated, and what a store or a
chain refused is passed on with its own message.
-/

namespace Provenance

/-- Why a registry refuses. -/
inductive RegistryError where
  /-- The store refuses. -/
  | store (error : StoreError)
  /-- The chain refuses. -/
  | chain (error : ChainError)
  /-- The token is registered already. -/
  | tokenExists (token : Token)
  /-- The token is not registered. -/
  | tokenNotFound (token : Token)
  /-- No key of the token was issued to the holder. -/
  | keyNotFound (holder : Holder) (token : Token)
  /-- The holder's key holds the token already. -/
  | alreadyOwner (holder : Holder)
  /-- The holder's key is for another position than the next one. -/
  | keyOutOfSequence (expected got : Position)
  /-- A link of the stored chain is broken. -/
  | chainDamaged (token : Token) (link : BrokenLink)
  deriving DecidableEq, Repr, Inhabited

/-- What is said about the error. -/
def RegistryError.message : RegistryError → String
  | .store error => "storage error: " ++ error.message
  | .chain error => "chain error: " ++ error.message
  | .tokenExists token => "token already exists: " ++ token.label
  | .tokenNotFound token => "token not found: " ++ token.label
  | .keyNotFound holder token =>
    "no key issued to " ++ holder.name ++ " for token " ++ token.label
  | .alreadyOwner holder => "token already owned by " ++ holder.name
  | .keyOutOfSequence expected got =>
    "key derived for position " ++ got.toNat.repr
      ++ ", next position is " ++ expected.toNat.repr
  | .chainDamaged token link =>
    "chain of token " ++ token.label ++ " is damaged: " ++ link.message

end Provenance
