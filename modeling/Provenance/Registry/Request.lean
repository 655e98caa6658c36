import Provenance.Registry.Basic
import Provenance.Store.Request
set_option autoImplicit false

/-!
# Requests to a registry

A request names one operation of a registry and its arguments, or one of the store
below it.  What the store answers is passed on as it is, errors included.
-/

namespace Provenance.Registry

/-- Something that a registry can be asked to do. -/
inductive Request where
  | createToken (title : String) (data : List UInt8)
  | searchToken (token : Token)
  | listTokens
  | loadChain (token : Token)
  | issueKey (holder : Holder) (token : Token) (passphrase : String)
  | transfer (holder : Holder) (token : Token)
  | validate (token : Token)
  /-- A request to the store itself. -/
  | store (request : Store.Request)
  deriving DecidableEq, Repr, Inhabited

/-- The token that a request is about.  Only a listing is about all of them. -/
def Request.token? : Request → Option Token
  | .createToken _ data => some (.ofData data)
  | .searchToken token
  | .loadChain token
  | .issueKey _ token _
  | .transfer _ token
  | .validate token => some token
  | .listTokens => none
  | .store request => request.token?

/-- What a registry answers. -/
inductive Answer where
  | record (record : TokenRecord)
  | tokens (tokens : List Token)
  | chain (chain : Chain)
  | key (record : KeyRecord)
  | change (change : Change)
  | report (report : Report)
  /-- What the store answered. -/
  | store (answer : Except StoreError Store.Answer)

/-- Carries out a request.  What the store answers is an answer, errors included. -/
def perform : Request → Procedure Registry RegistryError Answer
  | .createToken title data => .record <$> createToken title data
  | .searchToken token => .read fun r => .record <$> r.searchToken token
  | .listTokens => .read fun r => return .tokens r.tokens
  | .loadChain token => .read fun r => .chain <$> r.loadChain token
  | .issueKey holder token passphrase => .key <$> issueKey holder token passphrase
  | .transfer holder token => .change <$> transfer holder token
  | .validate token => .read fun r => .report <$> r.validate token
  | .store request => .store <$> (onStore (Store.perform request)).attempt

/-- The answer to a request and the registry after it. -/
def respond (r : Registry) (request : Request) : Logged RegistryError Answer × Registry :=
  (perform request).run r

end Provenance.Registry
