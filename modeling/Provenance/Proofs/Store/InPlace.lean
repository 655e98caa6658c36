import Provenance.Store.Request
import Provenance.Proofs.Ledger.InPlace
set_option autoImplicit false

/-!
# A store that is worked on in place

What a store does to one token is done to the ledger of that token in place, so an error
leaves the store as it was if it leaves the ledger (`allOrNothing_onLedger`).  This is so
of every request (`allOrNothing_perform`).
-/

namespace Provenance.Store

open Procedure

variable {ε α : Type} {x : Procedure Ledger ε α}

/-! ## Checks before writes -/

theorem allOrNothing_onLedger (token : Token) (whole : x.AllOrNothing) :
    (onLedger token x).AllOrNothing :=
  whole.on fun s => s.set_ledger token

/-- **A request that a store refuses leaves no trace.** -/
theorem allOrNothing_perform (request : Request) : (perform request).AllOrNothing := by
  cases request with
  | insertToken record =>
    exact (allOrNothing_onLedger _ (Ledger.allOrNothing_register record)).map _
  | insertKey record =>
    exact (allOrNothing_onLedger _ (Ledger.allOrNothing_insertKey record)).then_neverFails
      fun _ => neverFails_pure _
  | applyChange token change key =>
    have stored := allOrNothing_onLedger token (Ledger.allOrNothing_applyChange token change key)
    exact stored.then_neverFails fun _ => neverFails_pure _
  | overwriteRow token row =>
    exact ((neverFails_write _).bind fun _ => neverFails_pure _).allOrNothing
  | _ => exact (readsOnly_read _).allOrNothing

theorem allOrNothing_commit (token : Token) (key : Key) :
    (InPlace.commit token key).AllOrNothing := by
  refine .after_readsOnly (fun s => ?_) (readsOnly_read _)
  refine .after_readsOnly (fun chain => ?_) (readsOnly_read _)
  refine .after_readsOnly (fun (_, change) => ?_) (readsOnly_read _)
  have stored := allOrNothing_onLedger token (Ledger.allOrNothing_applyChange token change key)
  exact (stored.mapError _).then_neverFails fun _ => neverFails_pure _

/-! ## All writes at once -/

theorem outcome_onLedger (token : Token) (x : Procedure Ledger ε α) (s : Store) :
    (onLedger token x).outcome s =
      (fun (a, l) => (a, s.set token l)) <$> x.outcome (s.ledger token) :=
  outcome_on _ _ x s

theorem insertToken_eq (s : Store) (record : TokenRecord) :
    s.insertToken record =
      (fun (a, l) => (a, s.set record.token l)) <$> (s.ledger record.token).register record :=
  outcome_onLedger record.token _ s

theorem applyChange_eq (s : Store) (token : Token) (change : Change) (key : Key) :
    s.applyChange token change key =
      s.set token <$> (s.ledger token).applyChange token change key := by
  rw [applyChange, InPlace.applyChange, outcome_onLedger, Ledger.applyChange, Functor.map_map,
    Functor.map_map]

theorem commit_eq (s : Store) (token : Token) (key : Key) :
    s.commit token key = do
      let chain ← .ofExcept ((s.loadChain token).mapError .unreadable)
      let (_, change) ← .ofExcept ((chain.handOver key).mapError .refused)
      let s ← (s.applyChange token change key).mapError (.rejected change)
      return (change, s) := by
  simp only [commit, InPlace.commit, applyChange, outcome_bind, outcome_get, outcome_ofExcept,
    outcome_mapError, Logged.mapError_map, pure_bind, bind_assoc, bind_map_left, outcome_pure]

end Provenance.Store
