import Provenance.Registry.Request
import Provenance.Proofs.Store.InPlace
set_option autoImplicit false

/-!
# A registry that is worked on in place

A registry reads the chain of a token, decides, and then writes to the store below it.
Nothing that it writes is followed by anything that can fail (`allOrNothing_issueKey`,
`allOrNothing_transfer`), and a registration that is refused has written nothing
(`allOrNothing_create`), so no request that fails leaves a trace (`allOrNothing_perform`).
-/

namespace Provenance

open Procedure

namespace Ledger

variable {config : Config} {token : Token} {holder : Holder}

/-! ## One token -/

/-- Only a registration that was the first one has written anything, and it is not refused
any more. -/
theorem allOrNothing_create (record : TokenRecord) : (InPlace.create record).AllOrNothing := by
  refine .bind ((allOrNothing_register record).mapError _) (fun outcome => ?_)
    fun l outcome registered => ?_
  · cases outcome with
    | inserted => exact ((neverFails_emit _).bind fun _ => neverFails_pure _).allOrNothing
    | alreadyExists => exact (readsOnly_read _).allOrNothing
  · cases outcome with
    | inserted => exact .inr ((neverFails_emit _).bind fun _ => neverFails_pure _)
    | alreadyExists =>
      exact .inl (run_register_of_alreadyExists (mapError_eq_ok_iff.mp registered))

theorem create_eq (record : TokenRecord) (l : Ledger) :
    l.create record = (do
      let (outcome, l) ← (l.register record).mapError .store
      match outcome with
      | .inserted =>
        .emit (.tokenCreated record.token record.title)
        return (record, l)
      | .alreadyExists => .fail (.tokenExists record.token)) := by
  simp only [create, InPlace.create, outcome_bind, outcome_mapError]
  refine congrArg _ (funext fun registered => ?_)
  obtain ⟨outcome, l⟩ := registered
  cases outcome <;> rfl

theorem allOrNothing_issueKey (config : Config) (token : Token) (holder : Holder)
    (passphrase : String) : (InPlace.issueKey config token holder passphrase).AllOrNothing := by
  refine .after_readsOnly (fun _ => ?_) (readsOnly_read _)
  refine .after_readsOnly (fun chain => ?_) (readsOnly_read _)
  refine .after_readsOnly (fun id => ?_) (readsOnly_read _)
  exact ((allOrNothing_insertKey _).mapError _).then_neverFails fun _ =>
    (neverFails_emit _).bind fun _ => neverFails_pure _

theorem issueKey_eq (config : Config) (token : Token) (holder : Holder) (passphrase : String)
    (l : Ledger) :
    l.issueKey config token holder passphrase = do
      let _ ← l.search token
      let chain ← l.readChain config token
      let id ← .ofExcept (nextPosition chain)
      let record : KeyRecord := { token, id, key := chain.keyAt id passphrase, holder }
      let l ← .ofExcept ((l.insertKey record).mapError .store)
      .emit (.keyIssued token holder id record.key)
      return (record, l) := by
  simp only [issueKey, InPlace.issueKey, outcome_bind, outcome_read, outcome_ofExcept,
    outcome_mapError, outcome_insertKey, outcome_emit, outcome_pure, Logged.mapError_map,
    Logged.mapError_ofExcept, bind_assoc, bind_map_left, pure_bind]

theorem allOrNothing_transfer (config : Config) (token : Token) (holder : Holder) :
    (InPlace.transfer config token holder).AllOrNothing := by
  refine .after_readsOnly (fun _ => ?_) (readsOnly_read _)
  refine .after_readsOnly (fun chain => ?_) (readsOnly_read _)
  refine .after_readsOnly (fun l => ?_) (readsOnly_read _)
  split
  · exact (readsOnly_read _).allOrNothing
  · refine .after_readsOnly (fun _ => ?_) (readsOnly_read _)
    refine .after_readsOnly (fun (_, change) => ?_) (readsOnly_read _)
    exact ((allOrNothing_applyChange _ _ _).mapError _).then_neverFails fun _ =>
      (neverFails_emit _).bind fun _ => neverFails_pure _

theorem transfer_eq (config : Config) (token : Token) (holder : Holder) (l : Ledger) :
    l.transfer config token holder = do
      let _ ← l.search token
      let chain ← l.readChain config token
      match l.latestKey? holder with
      | none => .fail (.keyNotFound holder token)
      | some record =>
        .ofExcept (authorize config chain record)
        let (_, change) ← .ofExcept ((chain.handOver record.key).mapError .chain)
        let l ← (l.applyChange token change record.key).mapError .store
        .emit (.ownershipTransferred token holder change.id change.hasOwner)
        return (change, l) := by
  simp only [transfer, InPlace.transfer, outcome_bind, outcome_read, outcome_get, bind_assoc,
    pure_bind]
  refine bind_congr fun _ => bind_congr fun chain => ?_
  cases l.latestKey? holder with
  | none => rfl
  | some record =>
    simp only [applyChange, outcome_bind, outcome_ofExcept, outcome_mapError, outcome_emit,
      outcome_pure, Logged.mapError_map, bind_assoc, bind_map_left, pure_bind]

end Ledger

namespace Registry

/-! ## All tokens -/

theorem allOrNothing_onLedger {α : Type} {x : Procedure Ledger RegistryError α} (token : Token)
    (whole : x.AllOrNothing) : (onStore (Store.onLedger token x)).AllOrNothing :=
  (Store.allOrNothing_onLedger token whole).on fun _ => rfl

/-- **A request that a registry refuses leaves no trace.** -/
theorem allOrNothing_perform (request : Request) : (perform request).AllOrNothing := by
  cases request with
  | createToken title data =>
    exact (allOrNothing_onLedger _ (Ledger.allOrNothing_create _)).map _
  | issueKey holder token passphrase =>
    have issued (r : Registry) := allOrNothing_onLedger token
      (Ledger.allOrNothing_issueKey r.config token holder passphrase)
    exact (AllOrNothing.after_readsOnly issued (readsOnly_read _)).map _
  | transfer holder token =>
    have transferred (r : Registry) := allOrNothing_onLedger token
      (Ledger.allOrNothing_transfer r.config token holder)
    exact (AllOrNothing.after_readsOnly transferred (readsOnly_read _)).map _
  | store request => exact (neverFails_attempt _).allOrNothing.map _
  | _ => exact (readsOnly_read _).allOrNothing

end Registry

end Provenance
