import Provenance.Proofs.Store.Persistence
set_option autoImplicit false

/-!
# Runs of a store

A run is a list of requests, carried out one after another.  A request is about one
token, and the two lemmas about that are what everything else here rests on: what is
answered, and what becomes of the ledger of the token, depends on that ledger alone
(`respond_congr`), and the ledgers of other tokens stay (`ledger_respond_of_other`).
-/

namespace Provenance.Store

variable {ε : Type} {s s' : Store} {token : Token} {change : Change} {key : Key}
  {request : Request}

/-! ## What a request does -/

/-- The store after an operation on the ledger of a token. -/
def settled (s : Store) (token : Token) : Except ε Ledger → Store
  | .ok l => s.set token l
  | .error _ => s

/-- An operation on the ledger of a token leaves the others. -/
theorem ledger_settled (s : Store) (token other : Token) (result : Except ε Ledger) :
    (s.settled token result).ledger other =
      if token = other then result.toOption.getD (s.ledger token) else s.ledger other := by
  cases result with
  | ok l => exact ledger_set s token other l
  | error e =>
    by_cases same : token = other
    · subst same
      rw [if_pos rfl]
      rfl
    · rw [if_neg same]
      rfl

theorem ledger_settled_self (s : Store) (token : Token) (result : Except ε Ledger) :
    (s.settled token result).ledger token = result.toOption.getD (s.ledger token) := by
  rw [ledger_settled, if_pos rfl]

theorem ledger_settled_of_ne {other : Token} (s : Store) (result : Except ε Ledger)
    (differs : other ≠ token) : (s.settled other result).ledger token = s.ledger token := by
  rw [ledger_settled, if_neg differs]

/-- What a request on the ledger of a token does, if it checks before it writes. -/
theorem run_map_onLedger {α β : Type} {x : Procedure Ledger ε α} (whole : x.AllOrNothing)
    (answer : α → β) (s : Store) (token : Token) :
    let outcome := x.outcome (s.ledger token)
    (answer <$> onLedger token x).run s =
      (⟨outcome.events, outcome.result.map fun outcome => answer outcome.1⟩,
        s.settled token (outcome.result.map Prod.snd)) := by
  refine (whole.run_map_on _ _ (fun s => s.set_ledger token) answer s).trans
    (congrArg (Prod.mk _) ?_)
  cases (x.outcome (s.ledger token)).result <;> rfl

theorem respond_insertToken (s : Store) (record : TokenRecord) :
    let outcome := (s.ledger record.token).register record
    s.respond (.insertToken record) =
      (⟨outcome.events, outcome.result.map fun (answer, _) => .registration answer⟩,
        s.settled record.token (outcome.result.map Prod.snd)) :=
  run_map_onLedger (Ledger.allOrNothing_register record) Answer.registration s record.token

theorem respond_insertKey (s : Store) (record : KeyRecord) :
    let outcome := (s.ledger record.token).insertKey record
    s.respond (.insertKey record) =
      (⟨[], outcome.map fun _ => .done⟩, s.settled record.token outcome) := by
  have ran := run_map_onLedger (Ledger.allOrNothing_insertKey record) (fun _ => Answer.done) s
    record.token
  refine ran.trans ?_
  rw [Ledger.outcome_insertKey]
  cases (s.ledger record.token).insertKey record <;> rfl

theorem respond_applyChange (s : Store) (token : Token) (change : Change) (key : Key) :
    let outcome := (s.ledger token).applyChange token change key
    s.respond (.applyChange token change key) =
      (⟨outcome.events, outcome.result.map fun _ => .done⟩, s.settled token outcome.result) := by
  have ran := run_map_onLedger (Ledger.allOrNothing_applyChange token change key)
    (fun _ => Answer.done) s token
  refine ran.trans ?_
  simp only [Ledger.applyChange, Logged.events_map, Logged.result_map]
  cases ((Ledger.InPlace.applyChange token change key).outcome (s.ledger token)).result <;> rfl

theorem respond_applyChange_of_ok (applied : (s.applyChange token change key).result = .ok s') :
    (s.respond (.applyChange token change key)).1.result = .ok .done ∧
      (s.respond (.applyChange token change key)).2 = s' := by
  rw [applyChange_eq, Logged.result_map] at applied
  rw [respond_applyChange]
  generalize (s.ledger token).applyChange token change key = outcome at applied ⊢
  obtain ⟨events, result⟩ := outcome
  cases result with
  | error e => cases applied
  | ok l => exact ⟨rfl, Except.ok.inj applied⟩

theorem respond_applyChange_of_error {e : StoreError}
    (refused : (s.applyChange token change key).result = .error e) :
    (s.respond (.applyChange token change key)).1.result = .error e ∧
      (s.respond (.applyChange token change key)).2 = s := by
  rw [applyChange_eq, Logged.result_map] at refused
  rw [respond_applyChange]
  generalize (s.ledger token).applyChange token change key = outcome at refused ⊢
  obtain ⟨events, result⟩ := outcome
  cases result with
  | error e => exact ⟨congrArg Except.error (Except.error.inj refused), rfl⟩
  | ok l => cases refused

theorem respond_overwriteRow (s : Store) (token : Token) (row : Element) :
    s.respond (.overwriteRow token row) =
      (⟨[], .ok .done⟩, s.set token ((s.ledger token).overwriteRow row)) :=
  rfl

theorem respond_countRows (s : Store) (token : Token) :
    s.respond (.countRows token) =
      (⟨[], ((s.ledger token).countRows token).map .count⟩, s) :=
  rfl

theorem respond_loadRows (s : Store) (token : Token) :
    s.respond (.loadRows token) = (⟨[], ((s.ledger token).loadRows token).map .rows⟩, s) :=
  rfl

theorem respond_loadChain (s : Store) (token : Token) :
    s.respond (.loadChain token) = (⟨[], ((s.ledger token).loadChain token).map .chain⟩, s) :=
  rfl

theorem respond_getToken (s : Store) (token : Token) :
    s.respond (.getToken token) = (⟨[], .ok (.record (s.ledger token).record)⟩, s) :=
  rfl

theorem respond_latestKey (s : Store) (holder : Holder) (token : Token) :
    s.respond (.latestKey holder token) =
      (⟨[], .ok (.key ((s.ledger token).latestKey? holder))⟩, s) :=
  rfl

theorem respond_holderOf (s : Store) (token : Token) (key : Key) :
    s.respond (.holderOf token key) =
      (⟨[], .ok (.holder ((s.ledger token).holderOf? key))⟩, s) :=
  rfl

/-! ## Every token by itself -/

/-- **A request works on the ledger of its token.**  Stores with the same ledger for it
give the same answer, log the same events and are left with the same ledger. -/
theorem respond_congr (about : request.token? = some token)
    (same : s.ledger token = s'.ledger token) :
    (s.respond request).1 = (s'.respond request).1 ∧
      (s.respond request).2.ledger token = (s'.respond request).2.ledger token := by
  cases request with
  | listTokens => cases about
  | insertToken record =>
    obtain rfl := Option.some.inj about
    simp only [respond_insertToken, ledger_settled_self, same, and_self]
  | insertKey record =>
    obtain rfl := Option.some.inj about
    simp only [respond_insertKey, ledger_settled_self, same, and_self]
  | applyChange other change key =>
    obtain rfl := Option.some.inj about
    simp only [respond_applyChange, ledger_settled_self, same, and_self]
  | overwriteRow other row =>
    obtain rfl := Option.some.inj about
    simp only [respond_overwriteRow, ledger_set, same, and_self]
  | countRows other =>
    obtain rfl := Option.some.inj about
    simp only [respond_countRows, same, and_self]
  | loadRows other =>
    obtain rfl := Option.some.inj about
    simp only [respond_loadRows, same, and_self]
  | loadChain other =>
    obtain rfl := Option.some.inj about
    simp only [respond_loadChain, same, and_self]
  | getToken other =>
    obtain rfl := Option.some.inj about
    simp only [respond_getToken, same, and_self]
  | latestKey holder other =>
    obtain rfl := Option.some.inj about
    simp only [respond_latestKey, same, and_self]
  | holderOf other key =>
    obtain rfl := Option.some.inj about
    simp only [respond_holderOf, same, and_self]

/-- **A request leaves the ledgers of other tokens.** -/
theorem ledger_respond_of_other (apart : request.token? ≠ some token) :
    (s.respond request).2.ledger token = s.ledger token := by
  cases request with
  | insertToken record =>
    rw [respond_insertToken]
    exact ledger_settled_of_ne s _ fun same => apart (congrArg some same)
  | insertKey record =>
    rw [respond_insertKey]
    exact ledger_settled_of_ne s _ fun same => apart (congrArg some same)
  | applyChange other change key =>
    rw [respond_applyChange]
    exact ledger_settled_of_ne s _ fun same => apart (congrArg some same)
  | overwriteRow other row =>
    rw [respond_overwriteRow, ledger_set, if_neg fun same => apart (congrArg some same)]
  | countRows other => rw [respond_countRows]
  | loadRows other => rw [respond_loadRows]
  | loadChain other => rw [respond_loadChain]
  | _ => rfl

/-! ## Runs -/

/-- A request in a run. -/
structure Step where
  /-- The store that the request met. -/
  before : Store
  request : Request
  response : Logged StoreError Answer

/-- The store after a run. -/
def after (s : Store) (requests : List Request) : Store :=
  requests.foldl (fun s request => (s.respond request).2) s

/-- The steps of a run. -/
def steps (s : Store) : List Request → List Step
  | [] => []
  | request :: requests =>
    ⟨s, request, (s.respond request).1⟩ :: (s.respond request).2.steps requests

theorem after_concat (s : Store) (requests : List Request) (request : Request) :
    s.after (requests ++ [request]) = ((s.after requests).respond request).2 := by
  rw [after, List.foldl_append]
  rfl

theorem steps_concat (s : Store) (requests : List Request) (request : Request) :
    s.steps (requests ++ [request]) =
      s.steps requests ++
        [⟨s.after requests, request, ((s.after requests).respond request).1⟩] := by
  induction requests generalizing s with
  | nil => rfl
  | cons first requests ih =>
    rw [List.cons_append, steps, ih]
    rfl

end Provenance.Store
