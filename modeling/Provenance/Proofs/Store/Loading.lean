import Mathlib.Data.List.Induction
import Provenance.Proofs.Ledger.Progress
import Provenance.Proofs.Store.Run
set_option autoImplicit false

/-!
# Loading: no accepted change makes rows unreadable

A store accepts changes that no transfer has reported: any generator for any row, any
owner for any row, under any key.  All that it insists on is that the new row comes
next and that the rows with the written cells are there.

`loadable_of_run` says that this is enough for reading the rows back.  Their ids count
from zero up to the number of the accepted changes (`Ledger.Counts`), so they are a
chain, even if hardly one of its links holds.
-/

namespace Provenance

/-! ## One token -/

namespace Ledger

variable {token : Token} {l l' : Ledger} {n : Nat}

/-- A change is accepted if the table of the token accepts it. -/
theorem result_applyChange_eq_ok_iff {change : Change} {key : Key} :
    (l.applyChange token change key).result = .ok l' ↔
      ∃ t t', l.table = some t ∧ t.apply change key = .ok t' ∧
        l' = { l with table := some t' } := by
  cases table : l.table with
  | none =>
    rw [applyChange_eq, getTable, table]
    simp [Logged.ofExcept, bind, Logged.bind]
  | some t =>
    cases applied : t.apply change key with
    | error refused =>
      rw [applyChange_of_error table applied]
      simp [applied]
    | ok t' =>
      rw [applyChange_of_ok table applied]
      simp [applied, eq_comm]

/-- The rows of a ledger that `n` changes were accepted for: none and no place for any
before the token is registered, and then one for each change, counted from zero. -/
inductive Counts (n : Nat) (l : Ledger) : Prop where
  | unknown (record : l.record = none) (table : l.table = none) (none : n = 0)
  | registered {t : RowTable} (record : l.record.isSome = true) (table : l.table = some t)
      (ids : t.newestFirst.map Element.id = Position.countdown n)

/-- An accepted change adds the row of the next number. -/
theorem Counts.apply {t t' : RowTable} {change : Change} {key : Key} (counts : l.Counts n)
    (table : l.table = some t) (applied : t.apply change key = .ok t') :
    Counts (n + 1) { l with table := some t' } := by
  cases counts with
  | unknown record noTable none => cases noTable.symm.trans table
  | registered record same ids =>
    obtain rfl := Option.some.inj (same.symm.trans table)
    obtain ⟨next, grown⟩ := RowTable.map_id_of_apply applied
    refine .registered record rfl ?_
    rw [RowTable.next?_of_ids ids] at next
    split at next
    · rw [grown, ids, Position.countdown, ← Option.some.inj next]
    · cases next

theorem reads_of_unknown (table : l.table = none) :
    l.countRows token = .error (.unknownToken token) ∧
      l.loadRows token = .error (.unknownToken token) ∧
      l.loadChain token = .error (.unknownToken token) := by
  simp [countRows, loadRows, loadChain, getTable, table, Except.map]

/-- **Rows that are counted from zero are read back as a chain.** -/
theorem reads_of_ids {t : RowTable} (table : l.table = some t)
    (ids : t.newestFirst.map Element.id = Position.countdown n) :
    l.countRows token = .ok n ∧
      ∃ rows, l.loadRows token = .ok rows ∧
        rows.map (fun row => row.id.toNat) = List.range n ∧
        ∃ c, l.loadChain token = .ok c ∧ c.token = token ∧ c.elements = rows := by
  have fits := RowTable.le_of_ids ids
  obtain ⟨c, loaded, htoken, elements⟩ :=
    exists_loadChain_of_contiguous token table (ids ▸ Position.contiguous_countdown fits)
  refine ⟨?_, t.rows, ?_, ?_, c, loaded, htoken, ?_⟩
  · have length := congrArg List.length ids
    rw [List.length_map, Position.length_countdown] at length
    rw [countRows, getTable, table, Except.map, RowTable.count, length]
  · exact loadRows_eq_ok_iff.mpr ⟨t, table, (List.reverse_reverse _).symm⟩
  · rw [← Position.map_toNat_reverse_countdown fits, ← ids, RowTable.rows]
    simp
  · rw [Chain.elements, elements, RowTable.rows]

end Ledger

namespace Store

variable {s : Store} {token : Token} {request : Request} {n : Nat}

/-! ## Checked requests -/

/-- Whether a request goes past none of the checks of a store. -/
def Request.isChecked : Request → Bool
  | .overwriteRow .. => false
  | _ => true

/-- Whether a request asks for the registration of a token. -/
def Request.registers (token : Token) : Request → Bool
  | .insertToken record => record.token = token
  | _ => false

/-- Whether a change of a token was asked for and accepted. -/
def applies (token : Token) : Request → Except StoreError Answer → Bool
  | .applyChange other _ _, .ok _ => other = token
  | _, _ => false

/-- Whether a change of a token was accepted in a step. -/
def Step.applies (token : Token) (step : Step) : Bool :=
  Store.applies token step.request step.response.result

/-- What a checked request can do to the registration and the rows of a token. -/
inductive Effect (token : Token) (l : Ledger) :
    Request → Except StoreError Answer → Ledger → Prop where
  | none {request : Request} {result : Except StoreError Answer} {l' : Ledger}
      (calm : applies token request result = false)
      (known : request.registers token = true → l.record.isSome = true)
      (record : l'.record = l.record) (table : l'.table = l.table) :
      Effect token l request result l'
  | registered {record : TokenRecord} {result : Except StoreError Answer}
      (about : record.token = token) (unknown : l.record = none) :
      Effect token l (.insertToken record) result
        { l with record := some record, table := some .empty }
  | applied {change : Change} {key : Key} {t t' : RowTable} {answer : Answer}
      (table : l.table = some t) (accepted : t.apply change key = .ok t') :
      Effect token l (.applyChange token change key) (.ok answer)
        { l with table := some t' }

theorem registers_of_other (apart : request.token? ≠ some token) :
    request.registers token = false := by
  cases request with
  | insertToken record => exact decide_eq_false fun same => apart (congrArg some same)
  | _ => rfl

theorem applies_of_other (apart : request.token? ≠ some token)
    (result : Except StoreError Answer) : applies token request result = false := by
  cases request with
  | applyChange other change key =>
    cases result with
    | error e => rfl
    | ok answer => exact decide_eq_false fun same => apart (congrArg some same)
  | _ => rfl

/-- A request that neither registers the token nor applies a change to it. -/
theorem Effect.kept {l l' : Ledger} {result : Except StoreError Answer}
    (calm : applies token request result = false) (quiet : request.registers token = false)
    (record : l'.record = l.record) (table : l'.table = l.table) :
    Effect token l request result l' :=
  .none calm (fun registers => absurd (quiet.symm.trans registers) Bool.false_ne_true)
    record table

/-- **Every checked request has one of the listed effects.** -/
theorem effect_respond (checked : request.isChecked = true) (s : Store) (token : Token) :
    Effect token (s.ledger token) request (s.respond request).1.result
      ((s.respond request).2.ledger token) := by
  by_cases about : request.token? = some token
  · cases request with
    | listTokens => cases about
    | overwriteRow other row => cases checked
    | insertToken record =>
      obtain rfl := Option.some.inj about
      rw [respond_insertToken, ledger_settled_self, Ledger.register_eq]
      cases known : (s.ledger record.token).record with
      | none => exact .registered rfl known
      | some registration =>
        exact .none rfl (fun _ => Option.isSome_of_eq_some known) rfl rfl
    | insertKey record =>
      obtain rfl := Option.some.inj about
      rw [respond_insertKey, ledger_settled_self, Ledger.insertKey_eq]
      split <;> exact .kept rfl rfl rfl rfl
    | applyChange other change key =>
      obtain rfl := Option.some.inj about
      rw [respond_applyChange, ledger_settled_self]
      cases answer : ((s.ledger other).applyChange other change key).result with
      | error e => exact .kept rfl rfl rfl rfl
      | ok l' =>
        obtain ⟨t, t', table, accepted, rfl⟩ := Ledger.result_applyChange_eq_ok_iff.mp answer
        exact .applied table accepted
    | countRows other =>
      rw [respond_countRows]
      exact .kept rfl rfl rfl rfl
    | loadRows other =>
      rw [respond_loadRows]
      exact .kept rfl rfl rfl rfl
    | loadChain other =>
      rw [respond_loadChain]
      exact .kept rfl rfl rfl rfl
    | _ => exact .kept rfl rfl rfl rfl
  · rw [ledger_respond_of_other about]
    exact .kept (applies_of_other about _) (registers_of_other about) rfl rfl

/-! ## Runs -/

/-- **One request counts as it should.** -/
theorem counts_of_effect {l l' : Ledger} {result : Except StoreError Answer}
    (effect : Effect token l request result l') (counts : l.Counts n) :
    l'.Counts (n + if applies token request result then 1 else 0) ∧
      l'.record.isSome = (l.record.isSome || request.registers token) := by
  cases effect with
  | none calm known record table =>
    rw [calm, record]
    refine ⟨?_, ?_⟩
    · cases counts with
      | unknown unknown noTable zero =>
        exact .unknown (record.trans unknown) (table.trans noTable) zero
      | registered registered rows ids =>
        exact .registered (record ▸ registered) (table.trans rows) ids
    · cases registers : request.registers token with
      | false => exact (Bool.or_false _).symm
      | true => rw [known registers, Bool.true_or]
  | @registered record result about unknown =>
    have asked : Request.registers token (.insertToken record) = true := decide_eq_true about
    cases counts with
    | unknown _ noTable zero =>
      subst zero
      exact ⟨.registered rfl rfl rfl, by rw [asked, Bool.or_true]; rfl⟩
    | registered known rows ids =>
      rw [unknown] at known
      cases known
  | @applied change key t t' answer table accepted =>
    have counted : applies token (.applyChange token change key) (.ok answer) = true :=
      decide_eq_true rfl
    rw [counted]
    exact ⟨counts.apply table accepted, (Bool.or_false _).symm⟩

/-- Any run of checked requests counts the changes that it accepts. -/
theorem counts_run {requests : List Request}
    (checked : ∀ request ∈ requests, request.isChecked = true) (token : Token) :
    Ledger.Counts ((({} : Store).steps requests).countP (Step.applies token))
        ((({} : Store).after requests).ledger token) ∧
      ((({} : Store).after requests).ledger token).record.isSome =
        requests.any (Request.registers token) := by
  induction requests using List.reverseRecOn with
  | nil =>
    rw [after, List.foldl_nil, ledger_empty]
    exact ⟨.unknown rfl rfl rfl, rfl⟩
  | append_singleton requests request ih =>
    obtain ⟨counts, known⟩ :=
      ih fun request member => checked request (List.mem_append_left _ member)
    have last := checked request (List.mem_append_right _ (List.mem_singleton_self _))
    obtain ⟨counts', known'⟩ := counts_of_effect
      (effect_respond last (({} : Store).after requests) token) counts
    rw [after_concat, steps_concat, List.countP_append, List.countP_singleton, List.any_append,
      ← known]
    exact ⟨counts', known'.trans (by rw [List.any_cons, List.any_nil, Bool.or_false])⟩

/-- Registering a token once more changes nothing. -/
theorem respond_insertToken_of_registered {record : TokenRecord}
    (registered : (s.ledger record.token).record.isSome = true) :
    (s.respond (.insertToken record)).1 = ⟨[], .ok (.registration .alreadyExists)⟩ ∧
      ∀ token, (s.respond (.insertToken record)).2.ledger token = s.ledger token := by
  have outcome : (s.ledger record.token).register record =
      ⟨[], .ok (.alreadyExists, s.ledger record.token)⟩ := by
    rw [Ledger.register_eq, if_pos registered]
    rfl
  rw [respond_insertToken, outcome]
  refine ⟨rfl, fun token => ?_⟩
  rw [ledger_settled]
  split
  · subst_vars
    rfl
  · rfl

/-- **No accepted change makes rows unreadable.**  After any run of requests to an empty
store, none of which goes past its checks:

* a token whose registration was never asked for has no rows and no chain to read;
* of any other one, the ids of the rows count from zero up to the number of changes
  that were accepted, as does their count where that is a word, and the rows are a
  chain; to register it again is answered as such and leaves all registrations, keys and
  rows as they were. -/
theorem loadable_of_run {requests : List Request}
    (checked : ∀ request ∈ requests, request.isChecked = true) (token : Token) :
    let s := ({} : Store).after requests
    let n := (({} : Store).steps requests).countP (Step.applies token)
    ((∀ record, .insertToken record ∈ requests → record.token ≠ token) →
      s.countRows token = .error (.unknownToken token) ∧
        s.loadRows token = .error (.unknownToken token) ∧
        s.loadChain token = .error (.unknownToken token)) ∧
    ∀ record, .insertToken record ∈ requests → record.token = token →
      (n < UInt64.size → s.countRows token = .ok n) ∧
        (∃ rows, s.loadRows token = .ok rows ∧
          rows.map (fun row => row.id.toNat) = List.range n ∧
          ∃ c, s.loadChain token = .ok c ∧ c.token = token ∧ c.elements = rows) ∧
        ∀ again : TokenRecord, again.token = token →
          (s.respond (.insertToken again)).1.result = .ok (.registration .alreadyExists) ∧
            ∀ other, (s.respond (.insertToken again)).2.ledger other = s.ledger other := by
  intro s n
  obtain ⟨counts, known⟩ := counts_run checked token
  refine ⟨fun never => ?_, fun record member about => ?_⟩
  · have unknown : requests.any (Request.registers token) = false := by
      refine List.any_eq_false.mpr fun request member => ?_
      cases request with
      | insertToken record => exact decide_eq_true_iff.not.mpr (never record member)
      | _ => exact Bool.false_ne_true
    cases counts with
    | unknown record table none => exact Ledger.reads_of_unknown table
    | registered record table ids => rw [known, unknown] at record; cases record
  · have registered : (s.ledger token).record.isSome = true := by
      rw [known]
      exact List.any_eq_true.mpr ⟨_, member, decide_eq_true about⟩
    cases counts with
    | unknown record table none => rw [record] at registered; cases registered
    | registered record table ids =>
      obtain ⟨count, rows⟩ := Ledger.reads_of_ids table ids
      refine ⟨fun _ => count, rows, fun again same => ?_⟩
      subst same
      obtain ⟨answer, ledgers⟩ := respond_insertToken_of_registered registered
      exact ⟨congrArg Logged.result answer, ledgers⟩

/-- A deed whose second row has cells that no transfer would write. -/
def forged : List Request :=
  [.insertToken ⟨⟨"T"⟩, "deed", []⟩, .applyChange ⟨"T"⟩ (.first 0) ⟨"A"⟩,
    .applyChange ⟨"T"⟩ { id := 1, generator := some ⟨"none"⟩, generatorId := 1,
                         owner := none, ownerId := 0 } ⟨"B"⟩,
    .applyChange ⟨"T"⟩ { id := 1, generator := some ⟨"none"⟩, generatorId := 0,
                         owner := some ⟨"nobody"⟩, ownerId := 0 } ⟨"A"⟩]

theorem loadable_of_run_forged :
    (∀ request ∈ forged, request.isChecked = true) ∧
      ∃ rows, (({} : Store).after forged).loadRows ⟨"T"⟩ = .ok rows ∧
        rows.map (fun row => row.id.toNat) = [0, 1] ∧
        ∃ c, (({} : Store).after forged).loadChain ⟨"T"⟩ = .ok c ∧ c.elements = rows := by
  have checked : ∀ request ∈ forged, request.isChecked = true := by decide
  have accepted : (({} : Store).steps forged).countP (Step.applies ⟨"T"⟩) = 2 := by rfl
  obtain ⟨_, ⟨rows, read, ids, c, loaded, _, elements⟩, _⟩ :=
    (loadable_of_run checked ⟨"T"⟩).2 _ List.mem_cons_self rfl
  rw [accepted] at ids
  exact ⟨checked, rows, read, ids, c, loaded, elements⟩

end Store

end Provenance
