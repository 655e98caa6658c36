import Provenance.Element
import Provenance.Record
set_option autoImplicit false

/-!
# Events

What a store and a registry do is logged as events.  An event has a level, a
message and named fields; all three are read off its kind.
-/

namespace Provenance

/-- How much an event matters. -/
inductive Level where
  | debug
  | info
  | warn
  deriving DecidableEq, Repr, Inhabited

/-- The name of a level. -/
def Level.name : Level → String
  | .debug => "DEBUG"
  | .info => "INFO"
  | .warn => "WARN"

/-- The value of a field. -/
inductive Field where
  | text (value : String)
  | number (value : Nat)
  | truth (value : Bool)
  deriving DecidableEq, Repr, Inhabited

/-- Something that a store or a registry did. -/
inductive Event where
  /-- A store has taken in a token. -/
  | tokenStored (token : Token) (title : String)
  /-- A store has applied a change; `ownerId` is there if an owner was written. -/
  | changeApplied (token : Token) (id generatorId : Position) (ownerId : Option Position)
  /-- A registry has registered a token. -/
  | tokenCreated (token : Token) (title : String)
  | tokenFound (token : Token) (title : String)
  | tokenNotFound (token : Token)
  /-- A chain was refused because one of its links is broken. -/
  | chainDamaged (token : Token) (brokenAt : Position)
  | keyIssued (token : Token) (holder : Holder) (id : Position) (key : Key)
  | ownershipTransferred (token : Token) (holder : Holder) (id : Position)
      (finalizedOwner : Bool)
  /-- A chain was reported as broken. -/
  | validationFailed (token : Token) (brokenAt : Position)
  | chainValidated (token : Token) (valid : Bool) (lastId : Option Position)
  deriving DecidableEq, Repr, Inhabited

namespace Event

/-- How much the event matters. -/
def level : Event → Level
  | .chainDamaged .. | .validationFailed .. => .warn
  | .ownershipTransferred .. => .info
  | _ => .debug

/-- What is said about the event. -/
def message : Event → String
  | .tokenStored .. => "token stored"
  | .changeApplied .. => "change applied"
  | .tokenCreated .. => "token created"
  | .tokenFound .. => "token found"
  | .tokenNotFound .. => "token not found"
  | .chainDamaged .. => "chain damaged"
  | .keyIssued .. => "key issued"
  | .ownershipTransferred .. => "ownership transferred"
  | .validationFailed .. => "validation failed"
  | .chainValidated .. => "chain validated"

/-- A field that holds a position. -/
def position (id : Position) : Field := .number id.toNat

/-- The text of a position that may be missing. -/
def optionalPosition : Option Position → String
  | none => "None"
  | some id => "Some(" ++ id.toNat.repr ++ ")"

/-- The fields of the event.  A key is shown abbreviated, all else in full. -/
def fields : Event → List (String × Field)
  | .tokenStored token title
  | .tokenCreated token title
  | .tokenFound token title => [("token", .text token.text), ("title", .text title)]
  | .tokenNotFound token => [("token", .text token.text)]
  | .changeApplied token id generatorId ownerId =>
    [("token", .text token.text), ("id", position id), ("generator_id", position generatorId)]
      ++ (ownerId.map fun owner => ("owner_id", position owner)).toList
  | .chainDamaged token brokenAt
  | .validationFailed token brokenAt =>
    [("token", .text token.text), ("broken_at", position brokenAt)]
  | .keyIssued token holder id key =>
    [("token", .text token.text), ("holder", .text holder.name), ("id", position id),
      ("key", .text key.label)]
  | .ownershipTransferred token holder id finalizedOwner =>
    [("token", .text token.text), ("holder", .text holder.name), ("id", position id),
      ("finalized_owner", .truth finalizedOwner)]
  | .chainValidated token valid lastId =>
    [("token", .text token.text), ("valid", .truth valid),
      ("last_id", .text (optionalPosition lastId))]

end Event

end Provenance
