import Provenance.Registry.Error
import Provenance.Store.Basic
set_option autoImplicit false

/-!
# The registry

A registry registers tokens, issues keys to holders and transfers tokens from one
holder to the next, on top of a store.  Every operation reads the chain of its
token from the store, decides on that copy, and stores only the change that a
transfer makes.  What an operation does to one token is defined on the ledger of
that token, in place (`Ledger.InPlace`), and the registry carries it out there.
-/

namespace Provenance

/-- How strict a registry is. -/
structure Config where
  /-- Whether a chain with a broken link is refused when it is loaded. -/
  validateOnLoad : Bool := true
  /-- Whether a transfer needs a key that was issued for the next position. -/
  enforceKeySequence : Bool := true
  deriving DecidableEq, Repr, Inhabited

/-- What a registry finds when it checks a stored chain. -/
structure Report where
  /-- Whether every link holds. -/
  valid : Bool
  /-- The position of the last element, if there is one. -/
  lastId : Option Position
  /-- Who the key of the last element was issued to, if every link holds. -/
  holder : Option Holder
  /-- The first broken link from the end. -/
  error : Option BrokenLink
  deriving DecidableEq, Repr, Inhabited

namespace Ledger

/-! ## One token -/

/-- Registers a token that is new. -/
def InPlace.create (record : TokenRecord) : Procedure Ledger RegistryError TokenRecord := do
  match ← (InPlace.register record).mapError .store with
  | .inserted =>
    .emit (.tokenCreated record.token record.title)
    return record
  | .alreadyExists => .fail (.tokenExists record.token)

/-- What comes of a registration. -/
def create (record : TokenRecord) (l : Ledger) :
    Logged RegistryError (TokenRecord × Ledger) :=
  (InPlace.create record).outcome l

/-- Looks the registration up. -/
def search (token : Token) (l : Ledger) : Logged RegistryError TokenRecord :=
  match l.record with
  | some record => do
    .emit (.tokenFound record.token record.title)
    return record
  | none => do
    .emit (.tokenNotFound token)
    .fail (.tokenNotFound token)

/-- Reads the chain of a registered token, as strictly as the registry is. -/
def readChain (config : Config) (token : Token) (l : Ledger) :
    Logged RegistryError Chain := do
  let _ ← l.search token
  let chain ← .ofExcept ((l.loadChain token).mapError .store)
  match config.validateOnLoad, chain.brokenLink? with
  | true, some link =>
    .emit (.chainDamaged token link.id)
    .fail (.chainDamaged token link)
  | _, _ => return chain

/-- The position that the next transfer adds. -/
def nextPosition (chain : Chain) : Except RegistryError Position :=
  match chain.next? with
  | none => .error (.chain .positionsExhausted)
  | some next => .ok next

/-- Issues the key of a passphrase for the next position to a holder. -/
def InPlace.issueKey (config : Config) (token : Token) (holder : Holder) (passphrase : String) :
    Procedure Ledger RegistryError KeyRecord := do
  let _ ← .read (search token)
  let chain ← .read (readChain config token)
  let id ← .ofExcept (nextPosition chain)
  let record : KeyRecord := { token, id, key := chain.keyAt id passphrase, holder }
  (InPlace.insertKey record).mapError .store
  .emit (.keyIssued token holder id record.key)
  return record

/-- What comes of issuing a key. -/
def issueKey (config : Config) (token : Token) (holder : Holder) (passphrase : String)
    (l : Ledger) : Logged RegistryError (KeyRecord × Ledger) :=
  (InPlace.issueKey config token holder passphrase).outcome l

/-- Whether the key of a holder may be used for the next transfer: it must not hold
the token already, and where the registry asks for it, it must be for the next
position. -/
def authorize (config : Config) (chain : Chain) (record : KeyRecord) :
    Except RegistryError Unit :=
  if chain.last?.map Element.key = some record.key then
    .error (.alreadyOwner record.holder)
  else if config.enforceKeySequence then
    match nextPosition chain with
    | .error error => .error error
    | .ok expected =>
      if record.id = expected then .ok ()
      else .error (.keyOutOfSequence expected record.id)
  else .ok ()

/-- Transfers the token to the latest key of a holder. -/
def InPlace.transfer (config : Config) (token : Token) (holder : Holder) :
    Procedure Ledger RegistryError Change := do
  let _ ← .read (search token)
  let chain ← .read (readChain config token)
  let l ← .get
  match l.latestKey? holder with
  | none => .fail (.keyNotFound holder token)
  | some record =>
    .ofExcept (authorize config chain record)
    let (_, change) ← .ofExcept ((chain.handOver record.key).mapError .chain)
    (InPlace.applyChange token change record.key).mapError .store
    .emit (.ownershipTransferred token holder change.id change.hasOwner)
    return change

/-- What comes of a transfer. -/
def transfer (config : Config) (token : Token) (holder : Holder) (l : Ledger) :
    Logged RegistryError (Change × Ledger) :=
  (InPlace.transfer config token holder).outcome l

/-- Checks the chain of the token and finds its holder.  A broken link is
reported and is no error. -/
def validate (token : Token) (l : Ledger) : Logged RegistryError Report := do
  let _ ← l.search token
  let chain ← .ofExcept ((l.loadChain token).mapError .store)
  let lastId := chain.last?.map Element.id
  match chain.brokenLink? with
  | none =>
    .emit (.chainValidated token true lastId)
    return { valid := true, lastId
             holder := chain.last?.bind fun last => l.holderOf? last.key
             error := none }
  | some link =>
    .emit (.validationFailed token link.id)
    .emit (.chainValidated token false lastId)
    return { valid := false, lastId, holder := none, error := some link }

end Ledger

/-- A store and how strictly it is used. -/
structure Registry where
  config : Config := {}
  store : Store := {}

instance : Inhabited Registry := ⟨{}⟩

namespace Registry

/-! ## All tokens -/

/-- A procedure on the store of a registry. -/
def onStore {ε α : Type} (x : Procedure Store ε α) : Procedure Registry ε α :=
  x.on Registry.store fun r store => { r with store }

/-- Registers the token of some data under a title, with an empty chain. -/
def createToken (title : String) (data : List UInt8) :
    Procedure Registry RegistryError TokenRecord :=
  let record : TokenRecord := { token := .ofData data, title, data }
  onStore (Store.onLedger record.token (Ledger.InPlace.create record))

/-- Looks a registration up. -/
def searchToken (r : Registry) (token : Token) : Logged RegistryError TokenRecord :=
  (r.store.ledger token).search token

/-- The registered tokens, in their order. -/
def tokens (r : Registry) : List Token := r.store.tokens

/-- Reads the chain of a token. -/
def loadChain (r : Registry) (token : Token) : Logged RegistryError Chain :=
  (r.store.ledger token).readChain r.config token

/-- Issues the key of a passphrase for the next position of a token. -/
def issueKey (holder : Holder) (token : Token) (passphrase : String) :
    Procedure Registry RegistryError KeyRecord := do
  let r ← .get
  onStore (Store.onLedger token (Ledger.InPlace.issueKey r.config token holder passphrase))

/-- Transfers a token to the latest key of a holder. -/
def transfer (holder : Holder) (token : Token) : Procedure Registry RegistryError Change := do
  let r ← .get
  onStore (Store.onLedger token (Ledger.InPlace.transfer r.config token holder))

/-- Checks the chain of a token and finds its holder. -/
def validate (r : Registry) (token : Token) : Logged RegistryError Report :=
  (r.store.ledger token).validate token

end Registry

end Provenance
