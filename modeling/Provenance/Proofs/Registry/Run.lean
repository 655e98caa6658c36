import Provenance.Proofs.Registry.InPlace
set_option autoImplicit false

/-!
# Runs of a registry

A run is a list of requests, carried out one after another on a registry over an
empty store.  Its steps are kept with the registry that each request met and with
what was answered, so that one can speak of what happened earlier: which keys were
issued (`issued`), and which of them a transfer was carried out with (`committed`).
-/

namespace Provenance.Registry

/-- A registry over an empty store. -/
def fresh (config : Config) : Registry := { config }

/-- Whether a request is one of the registry itself and goes past none of its
checks. -/
def Request.isOwn : Request → Bool
  | .store _ => false
  | _ => true

/-! ## Steps -/

/-- A request in a run. -/
structure Step where
  /-- The registry that the request met. -/
  before : Registry
  request : Request
  response : Logged RegistryError Answer

/-- The registry after a run. -/
def after (r : Registry) (requests : List Request) : Registry :=
  requests.foldl (fun r request => (r.respond request).2) r

/-- The steps of a run. -/
def steps (r : Registry) : List Request → List Step
  | [] => []
  | request :: requests =>
    ⟨r, request, (r.respond request).1⟩ :: (r.respond request).2.steps requests

theorem after_nil (r : Registry) : r.after [] = r :=
  rfl

theorem after_cons (r : Registry) (request : Request) (requests : List Request) :
    r.after (request :: requests) = (r.respond request).2.after requests :=
  rfl

theorem after_concat (r : Registry) (requests : List Request) (request : Request) :
    r.after (requests ++ [request]) = ((r.after requests).respond request).2 := by
  rw [after, List.foldl_append]
  rfl

theorem steps_concat (r : Registry) (requests : List Request) (request : Request) :
    r.steps (requests ++ [request]) =
      r.steps requests ++
        [⟨r.after requests, request, ((r.after requests).respond request).1⟩] := by
  induction requests generalizing r with
  | nil => rfl
  | cons first requests ih =>
    rw [List.cons_append, steps, ih]
    rfl

/-- An accepted request is the last step of its run. -/
theorem exists_step_concat {r : Registry} {requests : List Request} {request : Request}
    {answer : Answer} (accepted : ((r.after requests).respond request).1.result = .ok answer) :
    ∃ step, r.steps (requests ++ [request]) = r.steps requests ++ [step] ∧
      step.before = r.after requests ∧ step.request = request ∧
      step.response.result = .ok answer :=
  ⟨_, steps_concat .., rfl, rfl, accepted⟩

/-- What comes before a step is a run of its own, and the step is the next one
after it. -/
theorem exists_run_of_steps_eq {r : Registry} {requests : List Request}
    {earlier later : List Step} {step : Step}
    (split : r.steps requests = earlier ++ step :: later) :
    ∃ past request future, requests = past ++ request :: future ∧ earlier = r.steps past ∧
      step = ⟨r.after past, request, ((r.after past).respond request).1⟩ := by
  induction requests generalizing r earlier with
  | nil =>
    have empty := congrArg List.length split
    simp [steps] at empty
  | cons first requests ih =>
    cases earlier with
    | nil =>
      obtain ⟨same, _⟩ := List.cons.inj split
      exact ⟨[], first, requests, rfl, rfl, same.symm⟩
    | cons step' earlier =>
      obtain ⟨same, rest⟩ := List.cons.inj split
      obtain ⟨past, request, future, rfl, rfl, rfl⟩ := ih rest
      exact ⟨first :: past, request, future, rfl, by rw [← same]; rfl, rfl⟩

/-! ## Issued and committed keys -/

/-- The key of a token that was issued in a step. -/
def Step.issued? (token : Token) (step : Step) : Option KeyRecord :=
  match step.request, step.response.result with
  | .issueKey _ other _, .ok (.key record) => if other = token then some record else none
  | _, _ => none

/-- The key that a token was transferred to in a step: the latest one of the holder
whom it was transferred to. -/
def Step.committed? (token : Token) (step : Step) : Option KeyRecord :=
  match step.request, step.response.result with
  | .transfer holder other, .ok _ =>
    if other = token then step.before.store.latestKey? holder token else none
  | _, _ => none

theorem Step.committed?_of_accepted {step : Step} {holder : Holder} {token : Token}
    {answer : Answer} (asked : step.request = .transfer holder token)
    (accepted : step.response.result = .ok answer) :
    step.committed? token = step.before.store.latestKey? holder token := by
  unfold Step.committed?
  rw [asked, accepted]
  exact if_pos rfl

theorem Step.issued?_of_answered {step : Step} {holder : Holder} {token : Token}
    {passphrase : String} {record : KeyRecord}
    (asked : step.request = .issueKey holder token passphrase)
    (answered : step.response.result = .ok (.key record)) :
    step.issued? token = some record := by
  unfold Step.issued?
  rw [asked, answered]
  exact if_pos rfl

/-- The keys of a token that were issued, in their order. -/
def issued (token : Token) (steps : List Step) : List KeyRecord :=
  steps.filterMap (Step.issued? token)

/-- The keys that a token was transferred to, in their order. -/
def committed (token : Token) (steps : List Step) : List KeyRecord :=
  steps.filterMap (Step.committed? token)

theorem issued_concat (token : Token) (steps : List Step) (step : Step) :
    issued token (steps ++ [step]) = issued token steps ++ (step.issued? token).toList := by
  rw [issued, List.filterMap_append]
  cases known : step.issued? token <;> simp [issued, known]

theorem committed_concat (token : Token) (steps : List Step) (step : Step) :
    committed token (steps ++ [step]) =
      committed token steps ++ (step.committed? token).toList := by
  rw [committed, List.filterMap_append]
  cases known : step.committed? token <;> simp [committed, known]

/-- A transfer issues no key. -/
theorem issued_concat_of_transfer {token other : Token} {steps : List Step}
    {step : Step} {holder : Holder}
    (asked : step.request = .transfer holder other) :
    issued token (steps ++ [step]) = issued token steps := by
  rw [issued_concat, Step.issued?, asked]
  exact List.append_nil _

/-! ## What a request does -/

section

variable {α : Type}

/-- The registry after an operation on the ledger of a token. -/
def settled (r : Registry) (token : Token) : Except RegistryError (α × Ledger) → Registry
  | .ok (_, l) => { r with store := r.store.set token l }
  | .error _ => r

/-- What a request on the ledger of a token does, if it checks before it writes. -/
theorem run_map_onLedger {x : Procedure Ledger RegistryError α} (whole : x.AllOrNothing)
    (answer : α → Answer) (r : Registry) (token : Token) :
    let outcome := x.outcome (r.store.ledger token)
    (answer <$> onStore (Store.onLedger token x)).run r =
      (⟨outcome.events, outcome.result.map fun outcome => answer outcome.1⟩,
        r.settled token outcome.result) := by
  -- The ledger is a part of the store, and so it is one of the registry.
  have ran := whole.run_map_on (fun r : Registry => r.store.ledger token)
    (fun r l => { r with store := r.store.set token l }) (fun r => by rw [Store.set_ledger])
    answer r
  refine ran.trans (congrArg (Prod.mk _) ?_)
  cases (x.outcome (r.store.ledger token)).result <;> rfl

end

theorem respond_createToken (r : Registry) (title : String) (data : List UInt8) :
    let record : TokenRecord := ⟨.ofData data, title, data⟩
    let outcome := (r.store.ledger record.token).create record
    r.respond (.createToken title data) =
      (⟨outcome.events, outcome.result.map fun outcome => .record outcome.1⟩,
        r.settled record.token outcome.result) :=
  run_map_onLedger (Ledger.allOrNothing_create _) Answer.record r (.ofData data)

theorem respond_issueKey (r : Registry) (holder : Holder) (token : Token)
    (passphrase : String) :
    let outcome := (r.store.ledger token).issueKey r.config token holder passphrase
    r.respond (.issueKey holder token passphrase) =
      (⟨outcome.events, outcome.result.map fun outcome => .key outcome.1⟩,
        r.settled token outcome.result) :=
  run_map_onLedger (Ledger.allOrNothing_issueKey r.config token holder passphrase) Answer.key r
    token

theorem respond_transfer (r : Registry) (holder : Holder) (token : Token) :
    let outcome := (r.store.ledger token).transfer r.config token holder
    r.respond (.transfer holder token) =
      (⟨outcome.events, outcome.result.map fun outcome => .change outcome.1⟩,
        r.settled token outcome.result) :=
  run_map_onLedger (Ledger.allOrNothing_transfer r.config token holder) Answer.change r token

theorem respond_searchToken (r : Registry) (token : Token) :
    let outcome := (r.store.ledger token).search token
    r.respond (.searchToken token) = (⟨outcome.events, outcome.result.map .record⟩, r) :=
  congrArg (·, r) (Logged.map_eq _ (r.searchToken token))

theorem respond_loadChain (r : Registry) (token : Token) :
    let outcome := (r.store.ledger token).readChain r.config token
    r.respond (.loadChain token) = (⟨outcome.events, outcome.result.map .chain⟩, r) :=
  congrArg (·, r) (Logged.map_eq _ (r.loadChain token))

theorem respond_validate (r : Registry) (token : Token) :
    let outcome := (r.store.ledger token).validate token
    r.respond (.validate token) = (⟨outcome.events, outcome.result.map .report⟩, r) :=
  congrArg (·, r) (Logged.map_eq _ (r.validate token))

end Provenance.Registry
