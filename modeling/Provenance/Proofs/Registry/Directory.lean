import Mathlib.Data.List.Nodup
import Provenance.Proofs.Registry.Reports
import Provenance.Proofs.Text.Order
set_option autoImplicit false

/-!
# The directory: which tokens are registered, and as what

A token is named by the data it is made of, whatever title is given to it.  So the first
one who registers some data decides the title, and nobody can register the data again.
`directory_of_run` ties what is told about registrations to the history of a registry:
registrations are those that were accepted, and no request takes one back or rewrites it,
to the registry or to the store below it.  Only a registration in the store itself goes
past the registry, so none is asked for.
-/

namespace Provenance

namespace Store

/-- No other request than a registration in the store changes one. -/
theorem record_respond (s : Store) {request : Request}
    (other : ∀ record, request ≠ .insertToken record) (token : Token) :
    ((s.respond request).2.ledger token).record = (s.ledger token).record := by
  by_cases checked : request.isChecked = true
  · have effect := effect_respond checked s token
    generalize (s.respond request).2.ledger token = after,
      (s.respond request).1.result = result at effect ⊢
    cases effect with
    | none _ _ record _ => exact record
    | registered => exact absurd rfl (other _)
    | applied => rfl
  · cases request with
    | overwriteRow about row =>
      rw [respond_overwriteRow, ledger_set]
      split
      case isTrue same => exact congrArg (fun token => (s.ledger token).record) same
      case isFalse => rfl
    | _ => exact absurd rfl checked

end Store

namespace Registry

/-! ## Registrations in a run -/

/-- The registration that was accepted in a step. -/
def Step.created? (step : Step) : Option TokenRecord :=
  match step.request, step.response.result with
  | .createToken title data, .ok _ => some ⟨.ofData data, title, data⟩
  | _, _ => none

/-- The registrations that were accepted, in their order. -/
def created (steps : List Step) : List TokenRecord :=
  steps.filterMap Step.created?

theorem Step.created?_of_accepted {step : Step} {title : String} {data : List UInt8}
    {answer : Answer} (asked : step.request = .createToken title data)
    (accepted : step.response.result = .ok answer) :
    step.created? = some ⟨.ofData data, title, data⟩ := by
  unfold Step.created?
  rw [asked, accepted]

variable {steps : List Step} {r : Registry} {token : Token} {request : Request}

theorem created_concat (steps : List Step) (step : Step) :
    created (steps ++ [step]) = created steps ++ step.created?.toList := by
  rw [created, List.filterMap_append]
  cases known : step.created? <;> simp [created, known]

/-- A request goes past the registry if it registers a token in the store. -/
def Request.RegistersDirectly (request : Request) : Prop :=
  ∃ record, request = .store (.insertToken record)

/-! ## One request -/

theorem respond_createToken_of_unknown (title : String) {data : List UInt8}
    (unknown : (r.store.ledger (.ofData data)).record = none) :
    (r.respond (.createToken title data)).1.result =
        .ok (.record ⟨.ofData data, title, data⟩) ∧
      (r.respond (.createToken title data)).2.store =
        r.store.set (.ofData data)
          { r.store.ledger (.ofData data) with
            record := some ⟨.ofData data, title, data⟩, table := some .empty } := by
  rw [respond_createToken, Ledger.create_of_unknown unknown]
  exact ⟨rfl, rfl⟩

theorem respond_createToken_of_registered (title : String) {data : List UInt8}
    {registration : TokenRecord}
    (registered : (r.store.ledger (.ofData data)).record = some registration) :
    (r.respond (.createToken title data)).1.result = .error (.tokenExists (.ofData data)) ∧
      (r.respond (.createToken title data)).2 = r := by
  rw [respond_createToken, Ledger.create_of_registered registered]
  exact ⟨rfl, rfl⟩

/-- An operation on a ledger that keeps its registration keeps all registrations. -/
theorem record_settled {α : Type} {result : Except RegistryError (α × Ledger)}
    (kept : ∀ a l, result = .ok (a, l) → l.record = (r.store.ledger token).record)
    (other : Token) :
    ((r.settled token result).store.ledger other).record = (r.store.ledger other).record := by
  cases result with
  | error e => rfl
  | ok outcome =>
    rw [settled, Store.ledger_set]
    split
    case isTrue same => rw [kept outcome.1 outcome.2 rfl, same]
    case isFalse => rfl

/-- What a request does to registrations: if it is accepted as the registration of a token,
that one was not registered before and is now; all others are as they were. -/
structure Enters (step : Step) (r' : Registry) : Prop where
  unknown : ∀ record, step.created? = some record →
    (step.before.store.ledger record.token).record = none
  records : ∀ token, (r'.store.ledger token).record =
    (step.before.store.ledger token).record.or
      (step.created?.filter fun record => record.token = token)

/-- A request that leaves registrations alone. -/
theorem Enters.kept {step : Step} {r' : Registry} (quiet : step.created? = none)
    (kept : ∀ token, (r'.store.ledger token).record =
      (step.before.store.ledger token).record) : Enters step r' where
  unknown := by simp [quiet]
  records token := by rw [kept, quiet, Option.filter_none, Option.or_none]

/-- **Every request enters the registration that it is accepted as.** -/
theorem enters_respond (r : Registry) (checked : ¬request.RegistersDirectly) :
    Enters ⟨r, request, (r.respond request).1⟩ (r.respond request).2 := by
  cases request with
  | listTokens => exact .kept rfl fun _ => rfl
  | searchToken about =>
    refine .kept rfl fun token => ?_
    rw [respond_searchToken]
  | loadChain about =>
    refine .kept rfl fun token => ?_
    rw [respond_loadChain]
  | validate about =>
    refine .kept rfl fun token => ?_
    rw [respond_validate]
  | createToken title data =>
    cases known : (r.store.ledger (.ofData data)).record with
    | none =>
      obtain ⟨accepted, store⟩ := respond_createToken_of_unknown title known
      have entered : Step.created?
          ⟨r, .createToken title data, (r.respond (.createToken title data)).1⟩ =
          some ⟨.ofData data, title, data⟩ := Step.created?_of_accepted rfl accepted
      refine ⟨fun record same => ?_, fun token => ?_⟩
      · obtain rfl := Option.some.inj (entered.symm.trans same)
        exact known
      · rw [store, entered, Store.ledger_set]
        split
        case isTrue same => simp [← same, known, Option.filter_some]
        case isFalse differs => simp [differs, Option.filter_some]
    | some registration =>
      obtain ⟨refused, same⟩ := respond_createToken_of_registered title known
      refine .kept ?_ fun token => ?_
      · simp only [Step.created?, refused]
      · rw [same]
  | issueKey holder about passphrase =>
    refine .kept rfl fun token => ?_
    rw [respond_issueKey]
    exact record_settled (fun _ _ issued => (Ledger.kept_of_issueKey issued).1) token
  | transfer holder about =>
    refine .kept rfl fun token => ?_
    rw [respond_transfer]
    refine record_settled (fun change l transferred => ?_) token
    obtain ⟨t, rfl⟩ := Ledger.exists_table_of_transferred transferred
    rfl
  | store request =>
    refine .kept rfl fun token => Store.record_respond r.store (fun record same => ?_) token
    exact checked ⟨record, congrArg Request.store same⟩

/-! ## Runs -/

/-- The registrations of a registry are those that were accepted, each for a token of its
own. -/
structure Directory (steps : List Step) (r : Registry) : Prop where
  records : ∀ token, (r.store.ledger token).record =
    (created steps).find? fun record => record.token = token
  distinct : ((created steps).map TokenRecord.token).Nodup

theorem directory_fresh (config : Config) : Directory [] (fresh config) where
  records token := by
    rw [fresh, Store.ledger_empty]
    rfl
  distinct := .nil

theorem Directory.concat {step : Step} {r' : Registry} (directory : Directory steps step.before)
    (enters : Enters step r') : Directory (steps ++ [step]) r' where
  records token := by
    rw [enters.records, directory.records, created_concat, List.find?_append]
    cases step.created? with
    | none => rfl
    | some record => rw [Option.filter_some, Option.toList_some, List.find?_singleton]
  distinct := by
    rw [created_concat]
    cases entered : step.created? with
    | none =>
      rw [Option.toList_none, List.append_nil]
      exact directory.distinct
    | some record =>
      have unknown := enters.unknown record entered
      rw [directory.records, List.find?_eq_none] at unknown
      rw [Option.toList_some, List.map_append, List.map_singleton]
      refine List.nodup_append.mpr ⟨directory.distinct, List.nodup_singleton _, ?_⟩
      intro token before last same differs
      obtain ⟨earlier, member, rfl⟩ := List.mem_map.mp before
      rw [List.mem_singleton.mp same] at differs
      exact unknown earlier member (decide_eq_true differs)

theorem directory_run (config : Config) {requests : List Request}
    (checked : ∀ request ∈ requests, ¬request.RegistersDirectly) :
    Directory ((fresh config).steps requests) ((fresh config).after requests) := by
  induction requests using List.reverseRecOn with
  | nil => exact directory_fresh config
  | append_singleton requests request ih =>
    rw [List.forall_mem_append, List.forall_mem_singleton] at checked
    obtain ⟨earlier, last⟩ := checked
    rw [after_concat, steps_concat]
    exact (ih earlier).concat (enters_respond _ last)

/-! ## What is told about registrations -/

theorem Directory.record_eq_none_iff (directory : Directory steps r) :
    (r.store.ledger token).record = none ↔ ∀ record ∈ created steps, record.token ≠ token := by
  rw [directory.records, List.find?_eq_none]
  simp only [decide_eq_true_eq, ne_eq]

/-- No two registrations are for one token, so the token tells which one it is. -/
theorem Directory.record_eq_some_iff (directory : Directory steps r) {record : TokenRecord} :
    (r.store.ledger token).record = some record ↔
      record ∈ created steps ∧ record.token = token := by
  rw [directory.records]
  constructor
  · intro found
    exact ⟨List.mem_of_find?_eq_some found, by simpa using List.find?_some found⟩
  · rintro ⟨member, rfl⟩
    cases found : (created steps).find? fun other => other.token = record.token with
    | none => exact absurd (decide_eq_true rfl) (List.find?_eq_none.mp found record member)
    | some other =>
      have same : other.token = record.token := by simpa using List.find?_some found
      exact congrArg some (List.inj_on_of_nodup_map directory.distinct
        (List.mem_of_find?_eq_some found) member same)

theorem Directory.mem_tokens_iff (directory : Directory steps r) :
    token ∈ r.tokens ↔ token ∈ (created steps).map TokenRecord.token := by
  rw [tokens, Store.mem_tokens_iff, directory.records, List.find?_isSome, List.mem_map]
  simp only [decide_eq_true_eq]

/-- The token of a registration is that of its data. -/
theorem token_of_mem_created {record : TokenRecord} (member : record ∈ created steps) :
    record.token = .ofData record.data := by
  obtain ⟨step, _, entered⟩ := List.mem_filterMap.mp member
  unfold Step.created? at entered
  split at entered
  · obtain rfl := Option.some.inj entered
    rfl
  · cases entered

/-- **The first registration counts.**  After any run on an empty store, and whatever else
the store itself was asked to do besides registering tokens:

* data are registered under a title, and the record of both is the answer, exactly if no
  data of the same token were registered before; else it is answered that the token exists,
  and nothing changes;
* a token is found exactly if it was registered, and its record is the one of that
  registration; else it is answered that it is not found;
* every registration is for the token of its own data, and no two are for one token;
* the list of tokens is made of those that were registered, each once, by the order of
  their bytes. -/
theorem directory_of_run (config : Config) {requests : List Request}
    (checked : ∀ request ∈ requests, ¬request.RegistersDirectly) :
    let r := (fresh config).after requests
    let created := created ((fresh config).steps requests)
    (∀ title data, (r.respond (.createToken title data)).1.result =
        .ok (.record ⟨.ofData data, title, data⟩) ↔
      ∀ record ∈ created, record.token ≠ .ofData data) ∧
    (∀ title data, (∃ record ∈ created, record.token = .ofData data) →
      (r.respond (.createToken title data)).1.result = .error (.tokenExists (.ofData data)) ∧
        (r.respond (.createToken title data)).2 = r) ∧
    (∀ token record, (r.respond (.searchToken token)).1.result = .ok (.record record) ↔
      record ∈ created ∧ record.token = token) ∧
    (∀ token, (r.respond (.searchToken token)).1.result = .error (.tokenNotFound token) ↔
      ∀ record ∈ created, record.token ≠ token) ∧
    (∀ record ∈ created, record.token = .ofData record.data) ∧
    (created.map TokenRecord.token).Nodup ∧
    ∃ tokens, (r.respond .listTokens).1.result = .ok (.tokens tokens) ∧
      tokens.Perm (created.map TokenRecord.token) ∧
      tokens.Pairwise fun earlier later => Text.utf8 earlier.text < Text.utf8 later.text := by
  intro r created
  have directory : Directory ((fresh config).steps requests) r := directory_run config checked
  refine ⟨fun title data => ?_, fun title data => ?_, fun token record => ?_, fun token => ?_,
    fun record => token_of_mem_created, directory.distinct, r.tokens, rfl, ?_, ?_⟩
  · rw [← directory.record_eq_none_iff]
    cases known : (r.store.ledger (.ofData data)).record with
    | none => exact iff_of_true (respond_createToken_of_unknown title known).1 rfl
    | some registration =>
      have refused := (respond_createToken_of_registered title known).1
      exact iff_of_false (fun accepted => by cases refused.symm.trans accepted) (by simp)
  · rintro ⟨record, member, same⟩
    exact respond_createToken_of_registered title (directory.record_eq_some_iff.mpr ⟨member, same⟩)
  · rw [← directory.record_eq_some_iff, respond_searchToken]
    cases known : (r.store.ledger token).record with
    | none => simp [Ledger.search_of_unknown known, Except.map]
    | some registration => simp [Ledger.search_of_registered known, Except.map]
  · rw [← directory.record_eq_none_iff, respond_searchToken]
    cases known : (r.store.ledger token).record with
    | none => simp [Ledger.search_of_unknown known, Except.map]
    | some registration => simp [Ledger.search_of_registered known, Except.map]
  · exact (List.perm_ext_iff_of_nodup (Store.nodup_tokens r.store) directory.distinct).mpr
      fun token => directory.mem_tokens_iff
  · exact (Store.pairwise_tokens r.store).imp Token.utf8_lt_of_compare

/-- A deed that is registered, and once more under another title. -/
def retitled : List Request :=
  [.createToken "deed" [1], .createToken "copy" [1], .issueKey ⟨"alice"⟩ (.ofData [1]) "a",
    .transfer ⟨"alice"⟩ (.ofData [1])]

/-- Nobody registers the deed again under another title, and it keeps its own. -/
theorem directory_of_run_retitled :
    (∀ request ∈ retitled, ¬request.RegistersDirectly) ∧
      (((fresh {}).after retitled).respond (.createToken "copy" [1])).1.result =
        .error (.tokenExists (.ofData [1])) ∧
      (((fresh {}).after retitled).respond (.searchToken (.ofData [1]))).1.result =
        .ok (.record ⟨.ofData [1], "deed", [1]⟩) := by
  have checked : ∀ request ∈ retitled, ¬request.RegistersDirectly := by
    simp [retitled, Request.RegistersDirectly]
  have unknown : ((fresh {}).store.ledger (.ofData [1])).record = none := by simp [fresh]
  have entered : Step.created? ⟨fresh {}, .createToken "deed" [1],
      ((fresh {}).respond (.createToken "deed" [1])).1⟩ = some ⟨.ofData [1], "deed", [1]⟩ :=
    Step.created?_of_accepted rfl (respond_createToken_of_unknown "deed" unknown).1
  have first : ⟨.ofData [1], "deed", [1]⟩ ∈ created ((fresh {}).steps retitled) :=
    List.mem_filterMap.mpr ⟨_, List.mem_cons_self, entered⟩
  obtain ⟨_, again, found, _⟩ := directory_of_run {} checked
  exact ⟨checked, (again "copy" [1] ⟨_, first, rfl⟩).1, (found _ _).mpr ⟨first, rfl⟩⟩

end Registry

end Provenance
