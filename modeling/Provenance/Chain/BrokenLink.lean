import Provenance.Chain.Basic
set_option autoImplicit false

/-!
# Broken links

A link joins two neighbouring elements.  It holds when the generator of the
earlier one is the one derived from the later one's position and key, and, once
the later one has a generator itself, the owner of the earlier one confirms it.
A chain is checked from its end, so of several broken links the one with the
greatest position is reported.
-/

namespace Provenance

/-- What is wrong with a link; the position is that of the earlier element. -/
inductive BrokenLink where
  | generatorMismatch (id : Position)
  | missingGenerator (id : Position)
  | ownerMismatch (id : Position)
  | missingOwner (id : Position)
  deriving DecidableEq, Repr, Inhabited

namespace BrokenLink

/-- The element that the link starts from. -/
def id : BrokenLink → Position
  | .generatorMismatch id | .missingGenerator id | .ownerMismatch id | .missingOwner id => id

/-- What is said about the broken link. -/
def message : BrokenLink → String
  | .generatorMismatch id => "generator mismatch on element " ++ id.toNat.repr
  | .missingGenerator id => "element " ++ id.toNat.repr ++ " has no generator"
  | .ownerMismatch id => "owner mismatch on element " ++ id.toNat.repr
  | .missingOwner id => "element " ++ id.toNat.repr ++ " has no owner"

/-- What is wrong with the generator of `earlier`, which has to commit to `later`. -/
def ofGenerator? (token : Token) (later earlier : Element) : Option BrokenLink :=
  match earlier.generator with
  | none => some (.missingGenerator earlier.id)
  | some generator =>
    if generator = .derive later.id token later.key then none
    else some (.generatorMismatch earlier.id)

/-- What is wrong with the owner of `earlier`, which has to confirm the generator
of `later` if that has one. -/
def ofOwner? (later earlier : Element) : Option BrokenLink :=
  match later.generator with
  | none => none
  | some generator =>
    match earlier.owner with
    | none => some (.missingOwner earlier.id)
    | some owner =>
      if owner = .derive generator then none else some (.ownerMismatch earlier.id)

/-- What is wrong with the link between two neighbours: the generator counts
before the owner. -/
def between? (token : Token) (later earlier : Element) : Option BrokenLink :=
  (ofGenerator? token later earlier).or (ofOwner? later earlier)

/-- The first broken link, coming from the newest element. -/
def first? (token : Token) : List Element → Option BrokenLink
  | later :: earlier :: older =>
      (between? token later earlier).or (first? token (earlier :: older))
  | _ => none

end BrokenLink

namespace Chain

/-- The broken link with the greatest position, if any link is broken. -/
def brokenLink? (c : Chain) : Option BrokenLink :=
  BrokenLink.first? c.token c.newestFirst

/-- Whether every link holds. -/
def isValid (c : Chain) : Bool := c.brokenLink?.isNone

end Chain

end Provenance
