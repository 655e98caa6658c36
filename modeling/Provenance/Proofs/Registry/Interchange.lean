import Provenance.Proofs.Registry.Decision
import Provenance.Proofs.Registry.Holders
import Provenance.Proofs.Registry.Isolation
import Provenance.Proofs.Registry.SameLookups
import Provenance.Proofs.Text.Ambiguity
set_option autoImplicit false

/-!
# Interchange: keys of different holders can be issued in any order

Two registries that are as strict as each other and whose ledgers have the same lookups,
token by token, cannot be told apart: whatever they are asked, they log the same, answer
the same, and have the same lookups afterwards (`SameLookups.respond`).  So two holders who
are given different keys of a token may be given them in either order
(`interchange_of_issues`).  If they are given the same key, a later question tells who was
given it last.
-/

namespace Provenance

open Logged (Related Parallel)

/-! ## Stores -/

namespace Store

/-- The ledgers of any token have the same lookups. -/
def SameLookups (s s' : Store) : Prop :=
  ∀ token, (s.ledger token).SameLookups (s'.ledger token)

namespace SameLookups

variable {ε α : Type} {s s' : Store} {token : Token}

theorem set (same : s.SameLookups s') (token : Token) {l l' : Ledger}
    (written : l.SameLookups l') : (s.set token l).SameLookups (s'.set token l') := by
  intro other
  rw [ledger_set, ledger_set]
  split
  · exact written
  · exact same other

theorem tokens (same : s.SameLookups s') : s.tokens = s'.tokens :=
  tokens_congr fun token => congrArg Option.isSome (same token).record

/-- What runs side by side on the ledgers of a token does so on the stores. -/
theorem onLedger (same : s.SameLookups s') {x : Procedure Ledger ε α}
    (parallel : Parallel Ledger.SameLookups (x.outcome (s.ledger token))
      (x.outcome (s'.ledger token))) :
    Parallel SameLookups ((onLedger token x).outcome s) ((onLedger token x).outcome s') := by
  rw [outcome_onLedger, outcome_onLedger]
  refine parallel.map ?_
  rintro ⟨answer, l⟩ ⟨_, l'⟩ ⟨rfl, written⟩
  exact ⟨rfl, same.set token written⟩

/-- **Stores with the same lookups do the same**, whatever they are asked. -/
theorem perform (same : s.SameLookups s') (request : Request) :
    Parallel SameLookups ((perform request).outcome s) ((perform request).outcome s') := by
  cases request with
  | insertToken record =>
    exact (same.onLedger ((same record.token).register record)).answer Answer.registration
  | getToken token =>
    exact .read (congrArg (fun record => pure (Answer.record record)) (same token).record) same
  | listTokens =>
    exact .read (congrArg (fun tokens => pure (Answer.tokens tokens)) same.tokens) same
  | insertKey record =>
    refine (same.onLedger ?_).answer fun _ => Answer.done
    rw [Ledger.outcome_insertKey, Ledger.outcome_insertKey]
    exact ((same record.token).insertKey record).map fun _ _ same' => ⟨rfl, same'⟩
  | latestKey holder token =>
    exact .read (congrArg (fun key => pure (Answer.key key)) ((same token).latestKey? holder)) same
  | holderOf token key =>
    exact .read (congrArg (fun holder => pure (Answer.holder holder)) ((same token).holderOf? key))
      same
  | countRows token =>
    exact .read (congrArg (fun count => Logged.ofExcept (count.map Answer.count))
      ((same token).countRows token)) same
  | loadRows token =>
    exact .read (congrArg (fun rows => Logged.ofExcept (rows.map Answer.rows))
      ((same token).loadRows token)) same
  | loadChain token =>
    exact .read (congrArg (fun chain => Logged.ofExcept (chain.map Answer.chain))
      ((same token).loadChain token)) same
  | applyChange token change key =>
    refine (same.onLedger ?_).answer fun _ => Answer.done
    rw [Ledger.outcome_applyChange, Ledger.outcome_applyChange]
    exact ((same token).applyChange token change key).map fun _ _ same' => ⟨rfl, same'⟩
  | overwriteRow token row =>
    exact .pure ⟨rfl, same.set token ((same token).overwriteRow row)⟩

theorem respond (same : s.SameLookups s') (request : Request) :
    (s.respond request).1 = (s'.respond request).1 ∧
      (s.respond request).2.SameLookups (s'.respond request).2 :=
  (same.perform request).run (allOrNothing_perform request) same

end SameLookups

end Store

/-! ## Registries -/

namespace Registry

/-- As strict as each other, and the stores have the same lookups. -/
structure SameLookups (r r' : Registry) : Prop where
  config : r.config = r'.config
  store : r.store.SameLookups r'.store

variable {r r' : Registry} {token : Token} {holder : Holder} {record : KeyRecord}

namespace SameLookups

theorem onLedger {ε α : Type} (same : r.SameLookups r') {x : Procedure Ledger ε α}
    (parallel : Parallel Ledger.SameLookups (x.outcome (r.store.ledger token))
      (x.outcome (r'.store.ledger token))) :
    Parallel SameLookups ((onStore (Store.onLedger token x)).outcome r)
      ((onStore (Store.onLedger token x)).outcome r') := by
  rw [onStore, Procedure.outcome_on, Procedure.outcome_on]
  refine .bind (same.store.onLedger parallel) ?_
  rintro ⟨answer, s⟩ ⟨_, s'⟩ ⟨rfl, written⟩
  exact .pure ⟨rfl, same.config, written⟩

/-- **Registries with the same lookups do the same**, whatever they are asked. -/
theorem perform (same : r.SameLookups r') (request : Request) :
    Parallel SameLookups ((perform request).outcome r) ((perform request).outcome r') := by
  have ledgers := same.store
  cases request with
  | createToken title data =>
    exact (same.onLedger ((ledgers _).create _)).answer Answer.record
  | searchToken token =>
    exact .read (congrArg (Answer.record <$> ·) ((ledgers token).search token)) same
  | listTokens =>
    exact .read (congrArg (fun tokens => pure (Answer.tokens tokens)) ledgers.tokens) same
  | loadChain token =>
    refine .read ?_ same
    rw [Registry.loadChain, Registry.loadChain, (ledgers token).readChain, same.config]
  | issueKey holder token passphrase =>
    refine .answer ?_ Answer.key
    simp only [Registry.issueKey, Procedure.outcome_bind, Procedure.outcome_get, pure_bind,
      same.config]
    exact same.onLedger ((ledgers token).issueKey _ _ _ _)
  | transfer holder token =>
    refine .answer ?_ Answer.change
    simp only [Registry.transfer, Procedure.outcome_bind, Procedure.outcome_get, pure_bind,
      same.config]
    exact same.onLedger ((ledgers token).transfer _ _ _)
  | validate token =>
    exact .read (congrArg (Answer.report <$> ·) ((ledgers token).validate token)) same
  | store request =>
    obtain ⟨answer, after⟩ := ledgers.respond request
    have told : ((onStore (Store.perform request)).run r).1 =
        ((onStore (Store.perform request)).run r').1 := answer
    refine .answer ?_ Answer.store
    rw [Procedure.outcome_attempt, Procedure.outcome_attempt, told]
    exact .ok _ ⟨rfl, same.config, after⟩

theorem respond (same : r.SameLookups r') (request : Request) :
    (r.respond request).1 = (r'.respond request).1 ∧
      (r.respond request).2.SameLookups (r'.respond request).2 :=
  (same.perform request).run (allOrNothing_perform request) same

/-- What a run shows depends on nothing but the lookups. -/
theorem exchanges (same : r.SameLookups r') (requests : List Request) :
    (r.steps requests).map Step.exchange = (r'.steps requests).map Step.exchange := by
  induction requests generalizing r r' with
  | nil => rfl
  | cons request requests ih =>
    obtain ⟨answer, same'⟩ := same.respond request
    rw [steps, steps, List.map_cons, List.map_cons]
    exact congrArg₂ List.cons (congrArg (Prod.mk request) answer) (ih same')

end SameLookups

/-- Registries that show the same in every run name the same holder of every key. -/
theorem holderOf?_of_exchanges
    (same : ∀ requests,
      (r.steps requests).map Step.exchange = (r'.steps requests).map Step.exchange)
    (token : Token) (key : Key) :
    r.store.holderOf? token key = r'.store.holderOf? token key := by
  let request := Request.store (.holderOf token key)
  have shown (r : Registry) : (r.steps [request]).map Step.exchange =
      [(request, ⟨[], .ok (.store (.ok (.holder (r.store.holderOf? token key))))⟩)] := rfl
  have told := same [request]
  rw [shown, shown] at told
  simpa using told

/-! ## Issued keys -/

/-- The registry after a key of a token was issued. -/
def issuing (r : Registry) (token : Token) (record : KeyRecord) : Registry :=
  let l := r.store.ledger token
  { r with store := r.store.set token { l with issued := record :: l.issued } }

theorem ledger_issuing (r : Registry) (token other : Token) (record : KeyRecord) :
    (r.issuing token record).store.ledger other =
      if token = other then
        { r.store.ledger token with issued := record :: (r.store.ledger token).issued }
      else r.store.ledger other :=
  Store.ledger_set ..

theorem sameButKeys_issuing (r : Registry) (token : Token) (record : KeyRecord) :
    (r.store.ledger token).SameButKeys ((r.issuing token record).store.ledger token) := by
  rw [ledger_issuing, if_pos rfl]
  exact ⟨rfl, rfl⟩

/-- A key is held by the one whom it was just issued to. -/
theorem holderOf?_issuing (r : Registry) (token : Token) (record : KeyRecord) :
    (r.issuing token record).store.holderOf? token record.key = some record.holder := by
  simp [Store.holderOf?, ledger_issuing, Ledger.holderOf?]

/-- Different keys of different holders leave the same lookups in either order. -/
theorem sameLookups_issuing (r : Registry) (token : Token) {record record' : KeyRecord}
    (apart : record.holder ≠ record'.holder) (differs : record.key ≠ record'.key) :
    ((r.issuing token record).issuing token record').SameLookups
      ((r.issuing token record').issuing token record) where
  config := rfl
  store := by
    intro other
    simp only [ledger_issuing, if_true]
    split
    · exact Ledger.sameLookups_swapped (r.store.ledger token) apart differs
    · exact .refl _

/-- A key that is issued would be issued, and be the same, whatever keys were issued
before. -/
theorem exists_events_of_answered {passphrase : String}
    (answered : (r.respond (.issueKey holder token passphrase)).1.result = .ok (.key record)) :
    record.holder = holder ∧ ∃ events, ∀ r' : Registry, r'.config = r.config →
      (r.store.ledger token).SameButKeys (r'.store.ledger token) →
      r'.respond (.issueKey holder token passphrase) =
        (⟨events, .ok (.key record)⟩, r'.issuing token record) := by
  rw [respond_issueKey] at answered
  obtain ⟨⟨record', l'⟩, issued, same⟩ := exists_ok_of_map answered
  obtain rfl := Answer.key.inj same
  obtain ⟨own, events, issues⟩ := Ledger.exists_events_of_issued issued
  refine ⟨own, events, fun r' config same => ?_⟩
  rw [respond_issueKey, config, issues same]
  rfl

/-! ## Two holders one after the other -/

/-- **Keys of different holders can be issued in any order.**  Let a registry, whatever was
done with it before, issue a key of a token to one holder and then one to another.  In the
other order:

* the second holder is given the same key, and the same is logged;
* so is the first holder after that;
* no requests that follow, to the registry or to its store, are answered or logged in
  another way, exactly if the two keys are different. -/
theorem interchange_of_issues (r : Registry) (token : Token) {first second : Holder}
    (apart : first ≠ second) {passphrase passphrase' : String} {record record' : KeyRecord}
    (issued : (r.respond (.issueKey first token passphrase)).1.result = .ok (.key record))
    (issued' : ((r.respond (.issueKey first token passphrase)).2.respond
      (.issueKey second token passphrase')).1.result = .ok (.key record')) :
    let one := Request.issueKey first token passphrase
    let two := Request.issueKey second token passphrase'
    (r.respond two).1 = ((r.respond one).2.respond two).1 ∧
    ((r.respond two).2.respond one).1 = (r.respond one).1 ∧
    (record.key ≠ record'.key ↔ ∀ later,
      ((r.after [two, one]).steps later).map Step.exchange =
        ((r.after [one, two]).steps later).map Step.exchange) := by
  intro one two
  obtain ⟨own, events, issues⟩ := exists_events_of_answered issued
  have first_one : r.respond one = (⟨events, .ok (.key record)⟩, r.issuing token record) :=
    issues r rfl (.refl _)
  rw [first_one] at issued'
  obtain ⟨own', events', issues'⟩ := exists_events_of_answered issued'
  have then_two := issues' (r.issuing token record) rfl (.refl _)
  have first_two : r.respond two = (⟨events', .ok (.key record')⟩, r.issuing token record') :=
    issues' r rfl (sameButKeys_issuing ..).symm
  have then_one := issues (r.issuing token record') rfl (sameButKeys_issuing ..)
  have last : r.after [one, two] = (r.issuing token record).issuing token record' := by
    rw [after_cons, first_one, after_cons, then_two, after_nil]
  have last' : r.after [two, one] = (r.issuing token record').issuing token record := by
    rw [after_cons, first_two, after_cons, then_one, after_nil]
  refine ⟨?_, ?_, ?_⟩
  · rw [first_two, first_one, then_two]
  · rw [first_two, then_one, first_one]
  · rw [last, last']
    have apart' : record'.holder ≠ record.holder := by
      rw [own, own']
      exact apart.symm
    constructor
    · intro differs later
      exact (sameLookups_issuing r token apart' differs.symm).exchanges later
    · intro same equal
      -- If there is one key only, the question whose it is tells who was given it last.
      have told := holderOf?_of_exchanges same token record.key
      rw [holderOf?_issuing, equal, holderOf?_issuing] at told
      exact apart' (Option.some.inj told).symm

/-- Alice and Bob are given keys of a deed that was just created, in either order.  If they
chose different passphrases, then the order does not matter, unless the texts of these two
have one digest. -/
theorem interchange_of_issues_deed :
    let deed : Token := .ofData [1]
    let r := (fresh {}).after [.createToken "deed" [1]]
    (⟨"alice"⟩ : Holder) ≠ ⟨"bob"⟩ ∧ ∀ passphrase passphrase',
      let one := Request.issueKey ⟨"alice"⟩ deed passphrase
      let two := Request.issueKey ⟨"bob"⟩ deed passphrase'
      let record := Ledger.nextRecord deed [] ⟨"alice"⟩ passphrase
      let record' := Ledger.nextRecord deed [] ⟨"bob"⟩ passphrase'
      ((r.respond one).1.result = .ok (.key record) ∧
        ((r.respond one).2.respond two).1.result = .ok (.key record')) ∧
      ((r.respond two).1.result = .ok (.key record') ∧
        ((r.respond two).2.respond one).1.result = .ok (.key record)) ∧
      (passphrase ≠ passphrase' →
        (∀ later, ((r.after [two, one]).steps later).map Step.exchange =
          ((r.after [one, two]).steps later).map Step.exchange) ∨
        (Key.source 0 deed passphrase ≠ Key.source 0 deed passphrase' ∧
          digest (Key.source 0 deed passphrase) = digest (Key.source 0 deed passphrase'))) := by
  intro deed r
  have created : r.store.ledger deed =
      { record := some ⟨deed, "deed", [1]⟩, table := some .empty } := ledger_deed
  -- Nothing else is needed of the registry.
  clear_value r
  have apart : (⟨"alice"⟩ : Holder) ≠ ⟨"bob"⟩ := by decide
  have room : ([] : List Key).length < UInt64.size := by decide
  refine ⟨apart, ?_⟩
  intro passphrase passphrase' one two record record'
  have issued : (r.respond one).1.result = .ok (.key record) :=
    respond_issueKey_of_history created rfl (loadRows_of_empty rfl) room ..
  have once := ledger_respond_issueKey created rfl (loadRows_of_empty rfl) room
    ⟨"alice"⟩ passphrase
  have issued' : ((r.respond one).2.respond two).1.result = .ok (.key record') :=
    respond_issueKey_of_history once rfl (loadRows_of_empty rfl) room ..
  obtain ⟨same, same', told⟩ := interchange_of_issues r deed apart issued issued'
  refine ⟨⟨issued, issued'⟩, ⟨same ▸ issued', same' ▸ issued⟩, fun differs => ?_⟩
  by_cases collides : record.key = record'.key
  · refine .inr ⟨fun texts => differs (Key.source_injective 0 deed texts), ?_⟩
    exact hash_eq_hash_iff.mp (congrArg Key.text collides)
  · exact .inl (told.mp collides)

end Registry

end Provenance
