import Mathlib.Data.List.Induction
import Provenance.Proofs.Ledger.Lookups
import Provenance.Proofs.Store.Loading
set_option autoImplicit false

/-!
# The issue log: lookups and the history of a store

A store takes in keys for any position and any holder, as long as their token is registered,
and what it answers about them depends on the order in which they came.  `lookups_of_run`
ties the answers to the history: after any run of requests they are those that the keys
taken in during the run call for, and a key is taken in exactly if its token was registered
before.
-/

namespace Provenance.Store

variable {s : Store} {token : Token} {request : Request}

/-- The key of a token that was taken in, if the request was for that. -/
def recorded? (token : Token) : Request → Except StoreError Answer → Option KeyRecord
  | .insertKey record, .ok _ => if record.token = token then some record else none
  | _, _ => none

/-- The key of a token that was taken in in a step. -/
def Step.recorded? (token : Token) (step : Step) : Option KeyRecord :=
  Store.recorded? token step.request step.response.result

/-- The keys of a token that were taken in, in their order. -/
def recorded (token : Token) (steps : List Step) : List KeyRecord :=
  steps.filterMap (Step.recorded? token)

theorem recorded_concat (token : Token) (steps : List Step) (step : Step) :
    recorded token (steps ++ [step]) =
      recorded token steps ++ (step.recorded? token).toList := by
  rw [recorded, List.filterMap_append]
  cases known : step.recorded? token <;> simp [recorded, known]

theorem recorded?_of_other (apart : request.token? ≠ some token)
    (result : Except StoreError Answer) : recorded? token request result = none := by
  cases request with
  | insertKey record =>
    cases result with
    | error e => rfl
    | ok answer => exact if_neg fun same => apart (congrArg some same)
  | _ => rfl

/-- A key is taken in exactly if its token is registered. -/
theorem respond_insertKey_eq_done_iff (record : KeyRecord) :
    (s.respond (.insertKey record)).1.result = .ok .done ↔
      (s.getToken? record.token).isSome = true := by
  rw [respond_insertKey, getToken?, Ledger.insertKey_eq]
  split
  case isTrue registered => exact iff_of_true rfl registered
  case isFalse unknown => exact iff_of_false (fun done => by cases done) unknown

/-- What a request does to the keys and to the registration of a token: a key that is taken
in comes before the others, and the token is registered from the first request for that
on. -/
structure Logs (token : Token) (l : Ledger) (request : Request)
    (result : Except StoreError Answer) (l' : Ledger) : Prop where
  issued : l'.issued = (recorded? token request result).toList ++ l.issued
  registered : l'.record.isSome = (l.record.isSome || request.registers token)

/-- A request that neither takes in a key nor registers the token. -/
theorem Logs.kept {l l' : Ledger} {result : Except StoreError Answer}
    (calm : recorded? token request result = none) (quiet : request.registers token = false)
    (issued : l'.issued = l.issued) (record : l'.record = l.record) :
    Logs token l request result l' where
  issued := by rw [calm, issued]; rfl
  registered := by rw [quiet, record, Bool.or_false]

/-- **Every request logs the key that it takes in.** -/
theorem logs_respond (s : Store) (request : Request) (token : Token) :
    Logs token (s.ledger token) request (s.respond request).1.result
      ((s.respond request).2.ledger token) := by
  by_cases about : request.token? = some token
  · cases request with
    | listTokens => cases about
    | insertToken record =>
      obtain rfl := Option.some.inj about
      have asked : Request.registers record.token (.insertToken record) = true :=
        decide_eq_true rfl
      rw [respond_insertToken, ledger_settled_self, Ledger.register_eq]
      split
      case isTrue registered => exact ⟨rfl, registered.trans (by rw [asked, Bool.or_true])⟩
      case isFalse unknown => exact ⟨rfl, by rw [asked, Bool.or_true]; rfl⟩
    | insertKey record =>
      obtain rfl := Option.some.inj about
      rw [respond_insertKey, ledger_settled_self, Ledger.insertKey_eq]
      split
      case isTrue registered =>
        refine ⟨?_, (Bool.or_false _).symm⟩
        simp [recorded?, Except.map, Except.toOption]
      case isFalse unknown => exact .kept rfl rfl rfl rfl
    | applyChange other change key =>
      obtain rfl := Option.some.inj about
      rw [respond_applyChange, ledger_settled_self]
      cases answer : ((s.ledger other).applyChange other change key).result with
      | error e => exact .kept rfl rfl rfl rfl
      | ok l' =>
        obtain ⟨_, _, _, _, rfl⟩ := Ledger.result_applyChange_eq_ok_iff.mp answer
        exact .kept rfl rfl rfl rfl
    | overwriteRow other row =>
      obtain rfl := Option.some.inj about
      rw [respond_overwriteRow, ledger_set, if_pos rfl]
      exact .kept rfl rfl rfl rfl
    | countRows other =>
      rw [respond_countRows]
      exact .kept rfl rfl rfl rfl
    | loadRows other =>
      rw [respond_loadRows]
      exact .kept rfl rfl rfl rfl
    | loadChain other =>
      rw [respond_loadChain]
      exact .kept rfl rfl rfl rfl
    | _ => exact .kept rfl rfl rfl rfl
  · rw [ledger_respond_of_other about]
    exact .kept (recorded?_of_other about _) (registers_of_other about) rfl rfl

/-- Any run leaves the keys that it took in, and registers the tokens that it was asked to. -/
theorem issued_run (requests : List Request) (token : Token) :
    let l := (({} : Store).after requests).ledger token
    l.issued = (recorded token (({} : Store).steps requests)).reverse ∧
      l.record.isSome = requests.any (Request.registers token) := by
  induction requests using List.reverseRecOn with
  | nil =>
    rw [after, List.foldl_nil, ledger_empty]
    exact ⟨rfl, rfl⟩
  | append_singleton requests request ih =>
    obtain ⟨issued, known⟩ := ih
    obtain ⟨issued', known'⟩ := logs_respond (({} : Store).after requests) request token
    rw [after_concat, steps_concat, List.any_append, List.any_cons, List.any_nil, Bool.or_false,
      ← known]
    refine ⟨?_, known'⟩
    rw [issued', issued, recorded_concat, List.reverse_append]
    refine congrArg (· ++ _) ?_
    unfold Step.recorded?
    cases recorded? token request _ <;> rfl

/-- **Lookups answer from all that was issued.**  After any run of requests to an empty
store, rows that were overwritten among them, and for every token:

* a key is taken in exactly if the token is registered, that is if its registration was
  asked for before;
* the key that a holder would use is, of the keys taken in for the token and the holder,
  the one for the greatest position, and of several for that position the last one; there
  is none exactly if the holder was given none;
* a key is said to be held by the one whom it was taken in for the last time, and by nobody
  exactly if it was not taken in for the token. -/
theorem lookups_of_run (requests : List Request) (token : Token) :
    let s := ({} : Store).after requests
    let records := recorded token (({} : Store).steps requests)
    (∀ record : KeyRecord, record.token = token →
      ((s.respond (.insertKey record)).1.result = .ok .done ↔
        (s.getToken? token).isSome = true)) ∧
    ((s.getToken? token).isSome = true ↔
      ∃ registration, .insertToken registration ∈ requests ∧ registration.token = token) ∧
    (∀ holder,
      (s.latestKey? holder token = none ↔ ∀ record ∈ records, record.holder ≠ holder) ∧
      ∀ record, s.latestKey? holder token = some record ↔ record.IsLatest holder records) ∧
    ∀ key,
      (s.holderOf? token key = none ↔ ∀ record ∈ records, record.key ≠ key) ∧
      ∀ holder, s.holderOf? token key = some holder ↔
        KeyRecord.IsLastHolder key records holder := by
  intro s records
  obtain ⟨issued, known⟩ := issued_run requests token
  have order : (s.ledger token).issued.reverse = records := by
    rw [issued, List.reverse_reverse]
  have listed : ∀ record, record ∈ (s.ledger token).issued ↔ record ∈ records := fun record => by
    rw [issued, List.mem_reverse]
  refine ⟨?_, ?_, fun holder => ⟨?_, fun record => ?_⟩, fun key => ⟨?_, fun holder => ?_⟩⟩
  · rintro record rfl
    exact respond_insertKey_eq_done_iff record
  · rw [getToken?, known, List.any_eq_true]
    constructor
    · rintro ⟨request, member, asked⟩
      cases request with
      | insertToken registration => exact ⟨registration, member, of_decide_eq_true asked⟩
      | _ => cases asked
    · rintro ⟨registration, member, about⟩
      exact ⟨_, member, decide_eq_true about⟩
  · simp only [latestKey?, Ledger.latestKey?_eq_none_iff, listed]
  · rw [latestKey?, Ledger.latestKey?_eq_some_iff, order]
  · simp only [holderOf?, Ledger.holderOf?_eq_none_iff, listed]
  · rw [holderOf?, Ledger.holderOf?_eq_some_iff, order]

end Provenance.Store
