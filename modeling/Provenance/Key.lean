import Provenance.Position
import Provenance.Token
set_option autoImplicit false

/-!
# Keys

A key stands for one holder at one position of a token's history.  It is derived
from the position, the token and a passphrase, so a holder can derive it again
from memory.  A stored key is taken as it is.
-/

namespace Provenance

/-- What a holder owns a token with. -/
structure Key where
  text : String
  deriving DecidableEq, Repr, Inhabited

namespace Key

/-- The text that is hashed for a key. -/
def source (position : Position) (token : Token) (passphrase : String) : String :=
  Part.joined [.integer position.toNat, .text token.text, .text passphrase]

/-- The key for a position of a token's history. -/
def derive (position : Position) (token : Token) (passphrase : String) : Key :=
  ⟨hash (source position token passphrase)⟩

/-- The key for the first position. -/
def first (token : Token) (passphrase : String) : Key :=
  derive 0 token passphrase

/-- The key as messages show it. -/
def label (k : Key) : String :=
  Text.labelled "Key" k.text

end Key

end Provenance
