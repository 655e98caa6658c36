import Std.Data.ExtTreeMap
import Provenance.Ledger.Basic
set_option autoImplicit false

/-!
# Stores

A store is the ledgers of all tokens, in the order of the tokens.  A token that
was never mentioned has an empty ledger.  Every operation works on the ledger of
one token (`Store.onLedger`), so the others are left as they were.
-/

namespace Provenance

/-- The ledgers of all tokens. -/
structure Store where
  ledgers : Std.ExtTreeMap Token Ledger := ∅

instance : Inhabited Store := ⟨{}⟩

namespace Store

/-- The ledger of a token. -/
def ledger (s : Store) (token : Token) : Ledger :=
  s.ledgers[token]?.getD {}

/-- The store with another ledger for a token, which gets an entry with the first thing
that is kept about it. -/
def set (s : Store) (token : Token) (l : Ledger) : Store :=
  if s.ledgers[token]? = none ∧ l = {} then s else ⟨s.ledgers.insert token l⟩

/-- A ledger that was written is read back, all others stay. -/
@[simp] theorem ledger_set (s : Store) (token other : Token) (l : Ledger) :
    (s.set token l).ledger other = if token = other then l else s.ledger other := by
  unfold set
  split
  case isTrue empty =>
    by_cases same : token = other
    · subst same
      simp [ledger, empty]
    · simp [same]
  case isFalse =>
    by_cases same : token = other <;>
      simp [ledger, Std.ExtTreeMap.getElem?_insert, same]

/-- A ledger that is put back where it was changes nothing. -/
@[simp] theorem set_ledger (s : Store) (token : Token) : s.set token (s.ledger token) = s := by
  unfold set ledger
  cases known : s.ledgers[token]? with
  | none => exact if_pos ⟨rfl, rfl⟩
  | some l =>
    rw [if_neg nofun]
    refine congrArg Store.mk (Std.ExtTreeMap.ext_getElem? fun other => ?_)
    rw [Std.ExtTreeMap.getElem?_insert]
    split
    case isTrue same =>
      rw [← Std.LawfulEqCmp.eq_of_compare same, known]
      rfl
    case isFalse => rfl

/-- The registered tokens, in their order. -/
def tokens (s : Store) : List Token :=
  s.ledgers.toList.filterMap fun entry =>
    if entry.2.record.isSome then some entry.1 else none

/-! ## Look-ups -/

/-- The registration of a token. -/
def getToken? (s : Store) (token : Token) : Option TokenRecord :=
  (s.ledger token).record

/-- The key that a holder would use for a transfer of the token. -/
def latestKey? (s : Store) (holder : Holder) (token : Token) : Option KeyRecord :=
  (s.ledger token).latestKey? holder

/-- Who a key of the token was issued to. -/
def holderOf? (s : Store) (token : Token) (key : Key) : Option Holder :=
  (s.ledger token).holderOf? key

/-- The number of rows of a token. -/
def countRows (s : Store) (token : Token) : Except StoreError Nat :=
  (s.ledger token).countRows token

/-- The rows of a token in the order of their ids. -/
def loadRows (s : Store) (token : Token) : Except StoreError (List Element) :=
  (s.ledger token).loadRows token

/-- The chain of a token. -/
def loadChain (s : Store) (token : Token) : Except StoreError Chain :=
  (s.ledger token).loadChain token

/-! ## Operations -/

/-- A procedure on the ledger of a token. -/
def onLedger {ε α : Type} (token : Token) (x : Procedure Ledger ε α) : Procedure Store ε α :=
  x.on (·.ledger token) (·.set token)

namespace InPlace

/-- Registers a token with an empty chain. -/
def insertToken (record : TokenRecord) : Procedure Store StoreError Registration :=
  onLedger record.token (Ledger.InPlace.register record)

/-- Keeps an issued key. -/
def insertKey (record : KeyRecord) : Procedure Store StoreError Unit :=
  onLedger record.token (Ledger.InPlace.insertKey record)

/-- Carries out a change of a token's rows. -/
def applyChange (token : Token) (change : Change) (key : Key) :
    Procedure Store StoreError Unit :=
  onLedger token (Ledger.InPlace.applyChange token change key)

end InPlace

/-- What comes of a registration. -/
def insertToken (s : Store) (record : TokenRecord) :
    Logged StoreError (Registration × Store) :=
  (InPlace.insertToken record).outcome s

/-- What comes of a change of a token's rows. -/
def applyChange (s : Store) (token : Token) (change : Change) (key : Key) :
    Logged StoreError Store :=
  Prod.snd <$> (InPlace.applyChange token change key).outcome s

/-- Puts a row of a token in place and checks nothing. -/
def overwriteRow (s : Store) (token : Token) (row : Element) : Store :=
  s.set token ((s.ledger token).overwriteRow row)

/-! ## A transfer without a registry -/

/-- Why a transfer made on a loaded chain does not come about. -/
inductive CommitError where
  /-- The chain cannot be loaded. -/
  | unreadable (error : StoreError)
  /-- The chain refuses the key. -/
  | refused (error : ChainError)
  /-- The store refuses the change. -/
  | rejected (change : Change) (error : StoreError)
  deriving DecidableEq, Repr, Inhabited

/-- Loads the chain of a token, hands it over to a key and stores the change. -/
def InPlace.commit (token : Token) (key : Key) : Procedure Store CommitError Change := do
  let s ← .get
  let chain ← .ofExcept ((s.loadChain token).mapError .unreadable)
  let (_, change) ← .ofExcept ((chain.handOver key).mapError .refused)
  (InPlace.applyChange token change key).mapError (.rejected change)
  return change

/-- What comes of a transfer. -/
def commit (s : Store) (token : Token) (key : Key) : Logged CommitError (Change × Store) :=
  (InPlace.commit token key).outcome s

end Store

end Provenance
