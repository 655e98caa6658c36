import Provenance.Commitment
set_option autoImplicit false

/-!
# Elements

One element of a token's history says which key holds the token from a position
on, and carries the two commitments that tie it to what follows.  Both are filled
in later, by the transfers after it: the generator by the next one, the owner by
the one after that.  The rows of a store are elements too.
-/

namespace Provenance

/-- One element of a token's history. -/
structure Element where
  /-- The position in the history. -/
  id : Position
  /-- The key that holds the token here. -/
  key : Key
  /-- The commitment to the key that comes next, once there is one. -/
  generator : Option Generator
  /-- The confirmation of the generator of the next element, once it has one. -/
  owner : Option Owner
  deriving DecidableEq, Repr, Inhabited

namespace Element

/-- An element that nothing follows yet. -/
def unlinked (id : Position) (key : Key) : Element :=
  { id, key, generator := none, owner := none }

/-- The element that starts a history with a holder: it repeats its own key. -/
def bootstrap (key : Key) : Element :=
  { id := 0, key, generator := some (.ofKey key), owner := some (.ofKey key) }

/-- Whether the element is committed to a successor: it has a generator, and that
is not just its own key. -/
def isBound (e : Element) : Bool :=
  match e.generator with
  | none => false
  | some generator => generator.text != e.key.text

theorem isBound_iff {e : Element} :
    e.isBound = true ↔ ∃ g, e.generator = some g ∧ g.text ≠ e.key.text := by
  unfold isBound
  cases e.generator with
  | none => simp
  | some generator => simp

theorem isBound_eq_false_iff {e : Element} :
    e.isBound = false ↔ ∀ g, e.generator = some g → g.text = e.key.text := by
  rw [← Bool.not_eq_true, isBound_iff]
  simp

end Element

/-! ## Changes -/

/-- The cells that one transfer writes: a new element, the generator of one
element before it, and the owner of another. -/
structure Change where
  /-- The position of the new element. -/
  id : Position
  /-- The generator that is written, if any. -/
  generator : Option Generator
  /-- The element that the generator is written to. -/
  generatorId : Position
  /-- The owner that is written, if any. -/
  owner : Option Owner
  /-- The element that the owner is written to. -/
  ownerId : Position
  deriving DecidableEq, Repr, Inhabited

namespace Change

/-- The change of a first transfer, which writes the new element alone. -/
def first (id : Position) : Change :=
  { id, generator := none, generatorId := 0, owner := none, ownerId := 0 }

/-- Whether the change writes an owner. -/
def hasOwner (c : Change) : Bool := c.owner.isSome

end Change

end Provenance
