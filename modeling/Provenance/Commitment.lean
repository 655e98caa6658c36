import Provenance.Key
set_option autoImplicit false

/-!
# Commitments

An element of a history is tied to its successor by two hashes.  The *generator*
commits to the key that comes next: it is derived from the position of that key,
the token and the key.  The *owner* confirms a generator: it is the hash of the
generator that stands one element further on.  The first element of a history
that starts with a holder has neither yet, and repeats its own key in both.
-/

namespace Provenance

/-- The commitment of an element to the key that comes next. -/
structure Generator where
  text : String
  deriving DecidableEq, Repr, Inhabited

namespace Generator

/-- The text that is hashed for a generator. -/
def source (position : Position) (token : Token) (key : Key) : String :=
  Part.joined [.integer position.toNat, .text token.text, .text key.text]

/-- The generator that commits to `key` at `position`. -/
def derive (position : Position) (token : Token) (key : Key) : Generator :=
  ⟨hash (source position token key)⟩

/-- The generator of an element that has no successor yet: its own key. -/
def ofKey (key : Key) : Generator := ⟨key.text⟩

/-- The generator as messages show it. -/
def label (g : Generator) : String :=
  Text.labelled "Generator" g.text

end Generator

/-- The confirmation of the generator one element further on. -/
structure Owner where
  text : String
  deriving DecidableEq, Repr, Inhabited

namespace Owner

/-- The owner that confirms a generator. -/
def derive (generator : Generator) : Owner :=
  ⟨hash (Part.joined [.text generator.text])⟩

/-- The owner of an element that has no successor yet: its own key. -/
def ofKey (key : Key) : Owner := ⟨key.text⟩

/-- The owner as messages show it. -/
def label (o : Owner) : String :=
  Text.labelled "Owner" o.text

end Owner

end Provenance
