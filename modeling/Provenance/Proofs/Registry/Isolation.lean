import Provenance.Proofs.Registry.Run
import Provenance.Proofs.Store.Run
set_option autoImplicit false

/-!
# Isolation: tokens do not notice each other

Two registries that are as strict as each other and have the same ledger for a token
(`Agree`) cannot be told apart by requests about that token, and a request about
another one leaves them in agreement.  So a token cannot tell what else a registry was
asked to do: `isolated_of_run` says that the exchanges about it are those of the run in
which nothing else was asked for.
-/

namespace Provenance.Registry

/-! ## Registries that agree on a token -/

/-- As strict as each other, and with the same ledger for a token. -/
structure Agree (token : Token) (r r' : Registry) : Prop where
  config : r.config = r'.config
  ledger : r.store.ledger token = r'.store.ledger token

variable {token : Token} {r r' : Registry} {request : Request}

theorem Agree.refl (token : Token) (r : Registry) : Agree token r r := ⟨rfl, rfl⟩

theorem Agree.trans {r'' : Registry} (first : Agree token r r') (second : Agree token r' r'') :
    Agree token r r'' :=
  ⟨first.config.trans second.config, first.ledger.trans second.ledger⟩

section

variable {α : Type}

theorem agree_settled (agree : Agree token r r')
    (result : Except RegistryError (α × Ledger)) :
    Agree token (r.settled token result) (r'.settled token result) := by
  cases result with
  | error e => exact agree
  | ok outcome =>
    refine ⟨agree.config, ?_⟩
    simp only [settled, Store.ledger_set, if_true]

theorem agree_settled_of_ne {other : Token} (differs : other ≠ token)
    (result : Except RegistryError (α × Ledger)) : Agree token (r.settled other result) r := by
  cases result with
  | error e => exact .refl token r
  | ok outcome =>
    refine ⟨rfl, ?_⟩
    simp only [settled, Store.ledger_set, if_neg differs]

end

/-- The store is asked and answers as it does by itself. -/
theorem respond_store (r : Registry) (request : Store.Request) :
    r.respond (.store request) =
      (⟨(r.store.respond request).1.events, .ok (.store (r.store.respond request).1.result)⟩,
        { r with store := (r.store.respond request).2 }) := by
  rw [respond, perform, Procedure.run_map, Logged.map_eq]
  rfl

/-- **Registries that agree on a token answer alike.**  They also log the same events,
and agree afterwards. -/
theorem respond_of_agree (about : request.token? = some token) (agree : Agree token r r') :
    (r.respond request).1 = (r'.respond request).1 ∧
      Agree token (r.respond request).2 (r'.respond request).2 := by
  cases request with
  | listTokens => cases about
  | createToken title data =>
    obtain rfl := Option.some.inj about
    rw [respond_createToken, respond_createToken, agree.ledger]
    exact ⟨rfl, agree_settled agree _⟩
  | searchToken other =>
    obtain rfl := Option.some.inj about
    rw [respond_searchToken, respond_searchToken, agree.ledger]
    exact ⟨rfl, agree⟩
  | loadChain other =>
    obtain rfl := Option.some.inj about
    rw [respond_loadChain, respond_loadChain, agree.ledger, agree.config]
    exact ⟨rfl, agree⟩
  | issueKey holder other passphrase =>
    obtain rfl := Option.some.inj about
    rw [respond_issueKey, respond_issueKey, agree.ledger, agree.config]
    exact ⟨rfl, agree_settled agree _⟩
  | transfer holder other =>
    obtain rfl := Option.some.inj about
    rw [respond_transfer, respond_transfer, agree.ledger, agree.config]
    exact ⟨rfl, agree_settled agree _⟩
  | validate other =>
    obtain rfl := Option.some.inj about
    rw [respond_validate, respond_validate, agree.ledger]
    exact ⟨rfl, agree⟩
  | store request =>
    obtain ⟨answer, ledger⟩ := Store.respond_congr about agree.ledger
    rw [respond_store, respond_store, answer]
    exact ⟨rfl, agree.config, ledger⟩

/-- **A request about another token is not noticed.** -/
theorem agree_respond_of_other (apart : request.token? ≠ some token) :
    Agree token (r.respond request).2 r := by
  cases request with
  | listTokens => exact .refl token r
  | createToken title data =>
    rw [respond_createToken]
    exact agree_settled_of_ne (fun same => apart (congrArg some same)) _
  | searchToken other =>
    rw [respond_searchToken]
    exact .refl token r
  | loadChain other =>
    rw [respond_loadChain]
    exact .refl token r
  | issueKey holder other passphrase =>
    rw [respond_issueKey]
    exact agree_settled_of_ne (fun same => apart (congrArg some same)) _
  | transfer holder other =>
    rw [respond_transfer]
    exact agree_settled_of_ne (fun same => apart (congrArg some same)) _
  | validate other =>
    rw [respond_validate]
    exact .refl token r
  | store request =>
    rw [respond_store]
    exact ⟨rfl, Store.ledger_respond_of_other apart⟩

/-! ## Runs -/

/-- Whether a request is about a token. -/
def Request.concerns (token : Token) (request : Request) : Bool :=
  request.token? = some token

/-- What a step shows: what was asked, and the answer with all that was logged. -/
def Step.exchange (step : Step) : Request × Logged RegistryError Answer :=
  (step.request, step.response)

/-- The exchanges of a run that are about a token. -/
def exchanges (token : Token) (steps : List Step) :
    List (Request × Logged RegistryError Answer) :=
  (steps.filter fun step => step.request.concerns token).map Step.exchange

theorem exchanges_cons_of_concerns (kept : request.concerns token = true) (r : Registry)
    (requests : List Request) :
    exchanges token (r.steps (request :: requests)) =
      (request, (r.respond request).1) ::
        exchanges token ((r.respond request).2.steps requests) := by
  simp [exchanges, steps, kept, Step.exchange]

theorem exchanges_cons_of_not_concerns (dropped : request.concerns token = false) (r : Registry)
    (requests : List Request) :
    exchanges token (r.steps (request :: requests)) =
      exchanges token ((r.respond request).2.steps requests) := by
  simp [exchanges, steps, dropped]

/-- Registries that agree on a token have the same exchanges about it, whatever else the
first of them is asked to do. -/
theorem exchanges_of_agree (agree : Agree token r r') (requests : List Request) :
    exchanges token (r.steps requests) =
        (r'.steps (requests.filter (Request.concerns token))).map Step.exchange ∧
      Agree token (r.after requests) (r'.after (requests.filter (Request.concerns token))) := by
  induction requests generalizing r r' with
  | nil => exact ⟨rfl, agree⟩
  | cons request requests ih =>
    by_cases about : request.token? = some token
    · have kept : request.concerns token = true := decide_eq_true about
      obtain ⟨answer, agree'⟩ := respond_of_agree about agree
      obtain ⟨rest, final⟩ := ih agree'
      rw [List.filter_cons_of_pos kept]
      refine ⟨?_, final⟩
      rw [exchanges_cons_of_concerns kept, rest, answer]
      rfl
    · have dropped : request.concerns token = false := decide_eq_false about
      obtain ⟨rest, final⟩ := ih ((agree_respond_of_other about).trans agree)
      rw [List.filter_cons_of_neg (by rw [dropped]; exact Bool.false_ne_true)]
      refine ⟨?_, final⟩
      rw [exchanges_cons_of_not_concerns dropped, rest]

/-- **Tokens are isolated from each other.**  Of any run of a registry on an empty
store, with requests of its own and to the store below in any order, the exchanges about
a token are those of the run in which nothing else was asked for: the same answers and
the same events.  Both runs leave the token with the same registration, the same issued
keys and the same rows. -/
theorem isolated_of_run (config : Config) (requests : List Request) (token : Token) :
    let alone := requests.filter (Request.concerns token)
    exchanges token ((fresh config).steps requests) =
        ((fresh config).steps alone).map Step.exchange ∧
      ((fresh config).after requests).store.ledger token =
        ((fresh config).after alone).store.ledger token := by
  intro alone
  obtain ⟨same, agree⟩ := exchanges_of_agree (.refl token (fresh config)) requests
  exact ⟨same, agree.ledger⟩

end Provenance.Registry
