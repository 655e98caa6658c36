import Provenance.Keccak.Sponge
import Provenance.Text.Hex
set_option autoImplicit false

/-!
# Digests of texts

Everything in an ownership history is bound together by SHA3-256 digests of
texts.  A text that is hashed is put together from parts, one after another with
nothing between them; a number counts as its decimal digits.  What is hashed
(`joined`) is kept apart from the hashing (`hash`), so that one can say when two
values are derived from the same text.
-/

namespace Provenance

/-- One part of a text to be hashed. -/
inductive Part where
  | text (value : String)
  | integer (value : Int)
  | truth (value : Bool)
  deriving DecidableEq, Repr, Inhabited

namespace Part

/-- The part as it stands in the text. -/
def render : Part → String
  | .text value => value
  | .integer (.ofNat n) => n.repr
  | .integer (.negSucc n) => "-" ++ (n + 1).repr
  | .truth true => "true"
  | .truth false => "false"

/-- The parts one after another. -/
def joined : List Part → String
  | [] => ""
  | part :: rest => part.render ++ joined rest

end Part

/-- The SHA3-256 digest of the UTF-8 bytes of a text. -/
def digest (text : String) : Vector UInt8 32 :=
  Keccak.sha3_256 (Text.utf8 text)

/-- The hash of a byte sequence: its digest in upper-case hexadecimal. -/
def hashBytes (bytes : List UInt8) : String :=
  Hex.encode .upper (Keccak.sha3_256 bytes).toList

/-- The hash of a text: its digest in upper-case hexadecimal. -/
def hash (text : String) : String :=
  Hex.encode .upper (digest text).toList

end Provenance
