import Provenance.Element
import Provenance.Procedure
set_option autoImplicit false

/-!
# Chains

A chain is the history of one token: elements whose ids follow one another
without a gap (`Contiguous`, part of the type).  The elements are kept with the
newest first, because a transfer looks at the last two only, and a chain is
checked from its end.

There are two ways for a chain to grow.  `Chain.push` takes a stored element as
it is and checks nothing but its id.  `Chain.handOver` is a transfer: it adds an
element for the new key, writes the generator of the last element, which commits
to that key, and writes the owner of the element before, which confirms that
generator.  Both are done to a chain in place, write by write (`Chain.InPlace`).
-/

namespace Provenance

/-- Each position directly follows the one before it, the newest first. -/
def Contiguous : List Position → Prop
  | later :: earlier :: older =>
      earlier.next? = some later ∧ Contiguous (earlier :: older)
  | _ => True

/-- The history of one token. -/
structure Chain where
  /-- The token whose history this is. -/
  token : Token
  /-- The elements, the newest first. -/
  newestFirst : List Element
  /-- How long the chain was said to become; nothing depends on it. -/
  expectedLength : UInt64
  /-- The ids follow one another. -/
  contiguous : Contiguous (newestFirst.map Element.id)
  deriving DecidableEq

/-- Why a chain does not grow. -/
inductive ChainError where
  /-- The id of an element is not the one that comes next. -/
  | outOfOrder (expected got : Position)
  /-- The last element is committed to a successor, or has the same key. -/
  | alreadyBound (id : Position)
  /-- Nothing comes after the greatest position. -/
  | positionsExhausted
  deriving DecidableEq, Repr, Inhabited

/-- What is said about the error. -/
def ChainError.message : ChainError → String
  | .outOfOrder expected got =>
    "out of order element: expected id " ++ expected.toNat.repr
      ++ ", got " ++ got.toNat.repr
  | .alreadyBound id =>
    "element " ++ id.toNat.repr ++ " is already bound to a successor"
  | .positionsExhausted => "element id space exhausted"

namespace Chain

/-! ## New chains -/

/-- The chain of a token that has no holder yet. -/
def empty (token : Token) (expectedLength : UInt64) : Chain :=
  { token, newestFirst := [], expectedLength, contiguous := trivial }

/-- The chain of the token of some data, held from the start by a passphrase. -/
def create (data : List UInt8) (passphrase : String) : Chain :=
  let token := Token.ofData data
  { token
    newestFirst := [.bootstrap (.first token passphrase)]
    expectedLength := 1
    contiguous := trivial }

/-! ## Views -/

/-- The elements in the order of their ids. -/
def elements (c : Chain) : List Element := c.newestFirst.reverse

/-- The number of elements. -/
def length (c : Chain) : Nat := c.newestFirst.length

/-- The last element, which names the key that holds the token. -/
def last? (c : Chain) : Option Element := c.newestFirst.head?

/-- The position that the next transfer adds, if there is one. -/
def next? (c : Chain) : Option Position :=
  match c.last? with
  | none => some 0
  | some last => last.id.next?

/-- The key of a passphrase for a position of this chain. -/
def keyAt (c : Chain) (position : Position) (passphrase : String) : Key :=
  .derive position c.token passphrase

/-- The position of the last element, or the first one if there is none. -/
def lastPosition (c : Chain) : Position :=
  match c.last? with
  | none => 0
  | some last => last.id

/-- The key of a passphrase for the position of the last element. -/
def key (c : Chain) (passphrase : String) : Key :=
  c.keyAt c.lastPosition passphrase

/-! ## Writing -/

/-- The chain with one more element.  An element whose id does not follow the last one is
none of this chain. -/
def append (row : Element) : Chain → Chain
  | { token, newestFirst := [], expectedLength, .. } =>
    { token, newestFirst := [row], expectedLength, contiguous := trivial }
  | { token, newestFirst := last :: older, expectedLength, contiguous } =>
    if next : last.id.next? = some row.id then
      { token, newestFirst := row :: last :: older, expectedLength
        contiguous := ⟨next, contiguous⟩ }
    else { token, newestFirst := last :: older, expectedLength, contiguous }

/-- The chain with a change to the element that many places before the last one, which
leaves its id. -/
def modify (back : Nat) (change : Element → Element) (keeps : ∀ e, (change e).id = e.id)
    (c : Chain) : Chain :=
  { c with
    newestFirst := c.newestFirst.modify back change
    contiguous := by
      have same (elements : List Element) :
          (elements.modify back change).map Element.id = elements.map Element.id := by
        induction elements generalizing back with
        | nil => simp
        | cons e older ih => cases back <;> simp [keeps, ih]
      rw [same]
      exact c.contiguous }

/-! ## Growing -/

namespace InPlace

/-- Adds a stored element as it is.  The first one may have any id. -/
def push (row : Element) : Procedure Chain ChainError Unit := do
  let c ← .get
  match c.last? with
  | none => .write (append row)
  | some last =>
    match last.id.next? with
    | none => .fail .positionsExhausted
    | some expected =>
      .check (row.id = expected) (.outOfOrder expected row.id)
      .write (append row)

/-- Hands the token over to a key.  Refused when the last element is committed to
a successor already, or holds the token with the same key. -/
def handOver (key : Key) : Procedure Chain ChainError Change := do
  let c ← .get
  match c.last? with
  | none =>
    .write (append (.unlinked 0 key))
    return .first 0
  | some last =>
    .check (last.key ≠ key ∧ last.isBound = false) (.alreadyBound last.id)
    match last.id.next? with
    | none => .fail .positionsExhausted
    | some id =>
      let generator := Generator.derive id c.token key
      let confirmed := c.newestFirst[1]?
      .write (modify 1 (fun e => { e with owner := some (.derive generator) }) fun _ => rfl)
      .write (modify 0 (fun e => { e with generator := some generator }) fun _ => rfl)
      .write (append (.unlinked id key))
      return { id
               generator := some generator
               generatorId := last.id
               owner := confirmed.map fun _ => .derive generator
               ownerId := (confirmed.map Element.id).getD 0 }

end InPlace

/-- The chain with a stored element added to it. -/
def push (row : Element) (c : Chain) : Except ChainError Chain :=
  ((InPlace.push row).outcome c).result.map Prod.snd

/-- The chain of a token with the given elements, in the order of their ids. -/
def ofElements (token : Token) (rows : List Element) : Except ChainError Chain :=
  rows.foldlM (fun c row => c.push row) (empty token (.ofNat rows.length))

/-- The chain after a transfer to a key, and the cells that the transfer wrote. -/
def handOver (key : Key) (c : Chain) : Except ChainError (Chain × Change) :=
  ((InPlace.handOver key).outcome c).result.map Prod.swap

end Chain

end Provenance
