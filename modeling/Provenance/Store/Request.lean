import Provenance.Store.Basic
set_option autoImplicit false

/-!
# Requests to a store

A request names one operation of a store and its arguments, an answer is what the
operation returns.  `Store.perform` carries a request out in place, and
`Store.respond` gives the answer and the store that is left.
-/

namespace Provenance.Store

/-- Something that a store can be asked to do. -/
inductive Request where
  | insertToken (record : TokenRecord)
  | getToken (token : Token)
  | listTokens
  | insertKey (record : KeyRecord)
  | latestKey (holder : Holder) (token : Token)
  | holderOf (token : Token) (key : Key)
  | countRows (token : Token)
  | loadRows (token : Token)
  | loadChain (token : Token)
  | applyChange (token : Token) (change : Change) (key : Key)
  | overwriteRow (token : Token) (row : Element)
  deriving DecidableEq, Repr, Inhabited

/-- The token that a request is about.  Only a listing is about all of them. -/
def Request.token? : Request → Option Token
  | .insertToken record => some record.token
  | .insertKey record => some record.token
  | .getToken token
  | .latestKey _ token
  | .holderOf token _
  | .countRows token
  | .loadRows token
  | .loadChain token
  | .applyChange token _ _
  | .overwriteRow token _ => some token
  | .listTokens => none

/-- What a store answers. -/
inductive Answer where
  | registration (outcome : Registration)
  | record (record : Option TokenRecord)
  | tokens (tokens : List Token)
  | key (record : Option KeyRecord)
  | holder (holder : Option Holder)
  | count (rows : Nat)
  | rows (rows : List Element)
  | chain (chain : Chain)
  /-- The request was carried out and there is nothing to tell. -/
  | done
  deriving DecidableEq

/-- Carries out a request. -/
def perform : Request → Procedure Store StoreError Answer
  | .insertToken record => .registration <$> InPlace.insertToken record
  | .getToken token => .read fun s => return .record (s.getToken? token)
  | .listTokens => .read fun s => return .tokens s.tokens
  | .insertKey record => do
    InPlace.insertKey record
    return .done
  | .latestKey holder token => .read fun s => return .key (s.latestKey? holder token)
  | .holderOf token key => .read fun s => return .holder (s.holderOf? token key)
  | .countRows token => .read fun s => .ofExcept ((s.countRows token).map .count)
  | .loadRows token => .read fun s => .ofExcept ((s.loadRows token).map .rows)
  | .loadChain token => .read fun s => .ofExcept ((s.loadChain token).map .chain)
  | .applyChange token change key => do
    InPlace.applyChange token change key
    return .done
  | .overwriteRow token row => do
    .write fun s => s.overwriteRow token row
    return .done

/-- The answer to a request and the store after it. -/
def respond (s : Store) (request : Request) : Logged StoreError Answer × Store :=
  (perform request).run s

end Provenance.Store
