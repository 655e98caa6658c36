import Mathlib.Data.List.Nodup
import Mathlib.Data.List.Perm.Subperm
import Provenance.Proofs.Registry.Holders
set_option autoImplicit false

/-!
# Sequence: a key is used once

A registry that asks for keys in sequence transfers a token only to a key that was
issued for the next position.  As positions only grow, a key that was used is of no
use any more: its holder needs another one before the next transfer.

`Placed` says where the keys of a run stand: no key is for a position beyond the next
one, each was made from a passphrase for its position, and in sequence the committed
keys are for the positions zero, one, two and so on.  `committed_of_run` draws the
conclusions for whole runs.
-/

namespace Provenance.Registry

/-! ## Transfers and issues, step by step -/

/-- Whether a token was transferred to a holder in a step. -/
def Step.transfers (holder : Holder) (token : Token) (step : Step) : Bool :=
  decide (step.request = .transfer holder token) && step.response.result.isOk

/-- Whether a key of a token was issued to a holder in a step. -/
def Step.issues (holder : Holder) (token : Token) (step : Step) : Bool :=
  match step.request with
  | .issueKey other token' _ =>
    decide (other = holder ∧ token' = token) && step.response.result.isOk
  | _ => false

variable {steps : List Step} {r : Registry} {step : Step} {token : Token} {holder : Holder}
  {config : Config} {requests : List Request} {record : KeyRecord}

theorem isOk_iff {ε α : Type} {x : Except ε α} : x.isOk = true ↔ ∃ a, x = .ok a := by
  cases x <;> simp [Except.isOk, Except.toBool]

theorem Step.transfers_iff :
    step.transfers holder token = true ↔
      step.request = .transfer holder token ∧ ∃ answer, step.response.result = .ok answer := by
  rw [transfers, Bool.and_eq_true, decide_eq_true_eq, isOk_iff]

theorem Step.issues_of_answered {passphrase : String}
    (asked : step.request = .issueKey holder token passphrase) {answer : Answer}
    (answered : step.response.result = .ok answer) : step.issues holder token = true := by
  rw [issues, asked]
  exact Bool.and_eq_true_iff.mpr ⟨decide_eq_true ⟨rfl, rfl⟩, isOk_iff.mpr ⟨answer, answered⟩⟩

theorem Step.issues_ne_true_of_transfers (transfers : step.transfers holder token = true) :
    step.issues holder token ≠ true := by
  rw [issues, (transfers_iff.mp transfers).1]
  exact Bool.false_ne_true

/-- A committed key is the latest one of a holder whom the token was transferred to. -/
theorem Step.exists_holder_of_committed? (commits : step.committed? token = some record) :
    ∃ holder, step.transfers holder token = true ∧
      step.before.store.latestKey? holder token = some record := by
  unfold Step.committed? at commits
  split at commits
  case h_1 holder other answer asked accepted =>
    split at commits
    case isTrue same =>
      exact ⟨holder, transfers_iff.mpr ⟨same ▸ asked, answer, accepted⟩, commits⟩
    case isFalse => cases commits
  case h_2 => cases commits

/-- A transfer in a run commits the latest key of its holder, which is for the next
position where the registry asks for that. -/
theorem exists_committed_of_transfers (own : ∀ request ∈ requests, request.isOwn = true)
    {earlier later : List Step} (split : (fresh config).steps requests = earlier ++ step :: later)
    (transfers : step.transfers holder token = true) :
    ∃ record, step.committed? token = some record ∧
      step.before.store.latestKey? holder token = some record ∧ record.holder = holder ∧
      (config.enforceKeySequence = true → record.id.toNat = (committed token earlier).length) := by
  obtain ⟨asked, answer, accepted⟩ := Step.transfers_iff.mp transfers
  obtain ⟨sound, same, r', outcome⟩ := outcome_of_step own split
  rw [asked] at outcome
  obtain ⟨record, latest, fitting⟩ := exists_committed_of_outcome outcome accepted
  refine ⟨record, (Step.committed?_of_accepted asked accepted).trans latest, latest,
    (Ledger.mem_of_latestKey? latest).2, fun enforced => ?_⟩
  rw [fitting (same ▸ enforced), List.length_map]

/-! ## Where the keys of a run stand -/

/-- The positions of the keys of a token. -/
structure Placed (config : Config) (token : Token) (steps : List Step) : Prop where
  bounded : ∀ record ∈ issued token steps, record.id.toNat ≤ (committed token steps).length
  derived : ∀ record ∈ issued token steps,
    ∃ passphrase, record.key = .derive record.id token passphrase
  inSequence : config.enforceKeySequence = true →
    (committed token steps).map (fun record => record.id.toNat) =
      List.range (committed token steps).length

/-- A key that is issued in a step is for the next position. -/
theorem exists_passphrase_of_step (own : ∀ request ∈ requests, request.isOwn = true)
    {earlier later : List Step} (split : (fresh config).steps requests = earlier ++ step :: later)
    (answered : step.issued? token = some record) :
    record.id.toNat = (committed token earlier).length ∧
      (∃ passphrase, record.key = .derive record.id token passphrase) ∧
      step.issues record.holder token = true := by
  obtain ⟨_, _, r', outcome⟩ := outcome_of_step own split
  obtain ⟨room, passphrase, asked, accepted, next⟩ := exists_passphrase_of_issued? outcome answered
  rw [List.length_map] at room
  refine ⟨?_, ⟨passphrase, ?_⟩, Step.issues_of_answered asked accepted⟩
  · rw [next, Ledger.nextRecord, List.length_map]
    exact UInt64.toNat_ofNat_of_lt' room
  · rw [next]
    rfl

/-- One more step keeps the keys of a run placed. -/
theorem placed_concat (own : ∀ request ∈ requests, request.isOwn = true) {earlier : List Step}
    (split : (fresh config).steps requests = earlier ++ [step])
    (placed : Placed config token earlier) : Placed config token (earlier ++ [step]) where
  bounded := by
    intro record member
    rw [issued_concat, List.mem_append, Option.mem_toList] at member
    rw [committed_concat, List.length_append]
    rcases member with before | answered
    · exact Nat.le_add_right_of_le (placed.bounded record before)
    · rw [(exists_passphrase_of_step own split answered).1]
      exact Nat.le_add_right _ _
  derived := by
    intro record member
    rw [issued_concat, List.mem_append, Option.mem_toList] at member
    rcases member with before | answered
    · exact placed.derived record before
    · exact (exists_passphrase_of_step own split answered).2.1
  inSequence := by
    intro enforced
    rw [committed_concat]
    cases commits : step.committed? token with
    | none =>
      rw [Option.toList_none, List.append_nil]
      exact placed.inSequence enforced
    | some record =>
      obtain ⟨holder, transfers, _⟩ := Step.exists_holder_of_committed? commits
      obtain ⟨record', commits', _, _, fitting⟩ :=
        exists_committed_of_transfers own split transfers
      obtain rfl := Option.some.inj (commits.symm.trans commits')
      rw [Option.toList_some, List.map_append, List.length_append, List.length_singleton,
        List.range_succ, placed.inSequence enforced, ← fitting enforced]
      rfl

/-- **The keys of every run are placed.** -/
theorem placed_run (config : Config) (token : Token)
    (own : ∀ request ∈ requests, request.isOwn = true) :
    Placed config token ((fresh config).steps requests) := by
  induction requests using List.reverseRecOn with
  | nil =>
    exact ⟨fun _ member => (by cases member), fun _ member => (by cases member), fun _ => rfl⟩
  | append_singleton requests request ih =>
    have placed := ih fun request member => own request (List.mem_append_left _ member)
    have split := steps_concat (fresh config) requests request
    rw [split]
    exact placed_concat own split placed

/-! ## A committed key is of no use any more -/

/-- Steps that issue no key of a token to a holder leave the holder's keys as they were. -/
theorem filter_issued_of_no_issue (own : ∀ request ∈ requests, request.isOwn = true)
    {earlier middle later : List Step}
    (split : (fresh config).steps requests = earlier ++ (middle ++ later))
    (none : ∀ step ∈ middle, step.issues holder token ≠ true) :
    (issued token middle).filter (fun record => record.holder = holder) = [] := by
  refine List.filter_eq_nil_iff.mpr fun record member same => ?_
  obtain ⟨step, there, answered⟩ := List.mem_filterMap.mp member
  obtain ⟨before, after, rfl⟩ := List.append_of_mem there
  rw [decide_eq_true_eq] at same
  subst same
  have split' : (fresh config).steps requests =
      (earlier ++ before) ++ step :: (after ++ later) := by
    simpa using split
  exact none step there (exists_passphrase_of_step own split' answered).2.2

/-- Without a new key of a holder the latest one stays. -/
theorem latestKey?_of_no_issue {r' : Registry} {quiet : List Step} (sound : Sound steps r)
    (sound' : Sound (steps ++ quiet) r')
    (none : (issued token quiet).filter (fun record => record.holder = holder) = []) :
    r'.store.latestKey? holder token = r.store.latestKey? holder token := by
  have records : (r'.store.ledger token).issued =
      (issued token quiet).reverse ++ (r.store.ledger token).issued := by
    rw [sound'.records, sound.records, issued, List.filterMap_append, List.reverse_append]
    rfl
  rw [Store.latestKey?, Ledger.latestKey?, records, List.filter_append, List.filter_reverse, none]
  rfl

/-- **Between two transfers to one holder a key was issued to that holder.** -/
theorem exists_issue_between (own : ∀ request ∈ requests, request.isOwn = true)
    (enforced : config.enforceKeySequence = true) {earlier middle later : List Step}
    {first second : Step}
    (split : (fresh config).steps requests = earlier ++ first :: (middle ++ second :: later))
    (transfers : first.transfers holder token = true)
    (transfers' : second.transfers holder token = true) :
    ∃ step ∈ middle, step.issues holder token = true := by
  by_contra none
  push Not at none
  have split' : (fresh config).steps requests =
      (earlier ++ first :: middle) ++ second :: later := by
    simpa using split
  obtain ⟨record, commits, latest, _, position⟩ :=
    exists_committed_of_transfers own split transfers
  obtain ⟨record', _, latest', _, position'⟩ :=
    exists_committed_of_transfers own split' transfers'
  -- Without a new key the second transfer commits the key of the first one again.
  have quiet : ∀ step ∈ first :: middle, step.issues holder token ≠ true :=
    List.forall_mem_cons.mpr ⟨Step.issues_ne_true_of_transfers transfers, none⟩
  have same : record' = record := by
    have kept := latestKey?_of_no_issue (outcome_of_step own split).1 (outcome_of_step own split').1
      (filter_issued_of_no_issue own (split'.trans (List.append_assoc ..)) quiet)
    rw [latest', latest] at kept
    exact Option.some.inj kept
  -- Its position was the next one then and has been taken since.
  have grown : (committed token earlier).length <
      (committed token (earlier ++ first :: middle)).length := by
    rw [committed, committed, List.filterMap_append, List.filterMap_cons_some commits,
      List.length_append, List.length_cons]
    omega
  rw [← position enforced, ← position' enforced, same] at grown
  exact Nat.lt_irrefl _ grown

/-! ## A position is used once -/

section Positions
variable (placed : Placed config token steps) (enforced : config.enforceKeySequence = true)
include placed enforced

theorem Placed.id_of_getElem? {i : Nat} (there : (committed token steps)[i]? = some record) :
    record.id.toNat = i := by
  obtain ⟨bound, _⟩ := List.getElem?_eq_some_iff.mp there
  have position := congrArg (·[i]?) (placed.inSequence enforced)
  simp only [List.getElem?_map, there, Option.map_some, List.getElem?_range bound] at position
  exact Option.some.inj position

theorem Placed.nodup_ids : ((committed token steps).map KeyRecord.id).Nodup := by
  refine List.Nodup.of_map UInt64.toNat ?_
  rw [List.map_map]
  exact (placed.inSequence enforced).symm ▸ List.nodup_range

theorem Placed.countP_id_le_one (id : Position) :
    (committed token steps).countP (fun record => record.id = id) ≤ 1 := by
  have once := List.nodup_iff_count_le_one.mp (placed.nodup_ids enforced) id
  rw [List.count, List.countP_map] at once
  exact once

end Positions

/-- A holder is transferred a token as often as one of the holder's keys is committed. -/
theorem countP_transfers_le (own : ∀ request ∈ requests, request.isOwn = true) :
    ((fresh config).steps requests).countP (Step.transfers holder token) ≤
      (committed token ((fresh config).steps requests)).countP
        (fun record => record.holder = holder) := by
  rw [committed, List.countP_filterMap]
  refine List.countP_mono_left fun step member transfers => ?_
  obtain ⟨earlier, later, split⟩ := List.append_of_mem member
  obtain ⟨record, commits, _, same, _⟩ := exists_committed_of_transfers own split transfers
  simp [commits, same]

/-- Every key of a holder was issued to that holder. -/
theorem le_countP_issues (own : ∀ request ∈ requests, request.isOwn = true) :
    (issued token ((fresh config).steps requests)).countP (fun record => record.holder = holder) ≤
      ((fresh config).steps requests).countP (Step.issues holder token) := by
  rw [issued, List.countP_filterMap]
  refine List.countP_mono_left fun step member answered => ?_
  obtain ⟨earlier, later, split⟩ := List.append_of_mem member
  cases answer : step.issued? token with
  | none => simp [answer] at answered
  | some record =>
    obtain rfl : record.holder = holder := by simpa [answer] using answered
    exact (exists_passphrase_of_step own split answer).2.2

/-- A committed key is in the row that its transfer added. -/
theorem exists_row_of_committed {r : Registry} (sound : Sound steps r) {i : Nat}
    (there : (committed token steps)[i]? = some record) :
    ∃ rows row, r.store.loadRows token = .ok rows ∧ rows[i]? = some row ∧ row.id = .ofNat i ∧
      row.key = record.key := by
  have registered := sound.registered (List.mem_of_getElem? there)
  let keys := (committed token steps).map KeyRecord.key
  have key : keys[i]? = some record.key := by
    rw [List.getElem?_map, there, Option.map_some]
  refine ⟨_, History.row token keys i record.key, sound.loadRows registered, ?_, rfl, rfl⟩
  rw [History.getElem?_rows, key, Option.map_some]

/-- **A key that was used is of no use any more.**  In every run on an empty store, where
the registry asks for keys in sequence:

* between any two transfers of a token to one holder a key of it was issued to that
  holder;
* the key that a transfer commits was issued before and is for the position of the row
  that the transfer added, so no two transfers commit keys for one position, whomever
  these were issued to;
* a token is transferred to nobody more often than keys of it were issued to that
  holder. -/
theorem committed_of_run (config : Config) (enforced : config.enforceKeySequence = true)
    {requests : List Request} (own : ∀ request ∈ requests, request.isOwn = true)
    (token : Token) :
    let steps := (fresh config).steps requests
    let r := (fresh config).after requests
    (∀ holder earlier first middle second later,
      steps = earlier ++ first :: (middle ++ second :: later) →
      first.transfers holder token = true → second.transfers holder token = true →
      ∃ step ∈ middle, step.issues holder token = true) ∧
    (∀ i record, (committed token steps)[i]? = some record →
      record.id.toNat = i ∧ record ∈ issued token steps ∧
      ∃ rows row, r.store.loadRows token = .ok rows ∧ rows[i]? = some row ∧
        row.id = record.id ∧ row.key = record.key) ∧
    (∀ id, (committed token steps).countP (fun record => record.id = id) ≤ 1) ∧
    ∀ holder, steps.countP (Step.transfers holder token) ≤
      steps.countP (Step.issues holder token) := by
  intro steps r
  obtain ⟨sound, _⟩ := sound_run config own
  have placed := placed_run config token own
  refine ⟨?_, ?_, placed.countP_id_le_one enforced, ?_⟩
  · intro holder earlier first middle second later split transfers transfers'
    exact exists_issue_between own enforced split transfers transfers'
  · intro i record there
    have position := placed.id_of_getElem? enforced there
    obtain ⟨rows, row, loaded, atRow, id, key⟩ := exists_row_of_committed sound there
    refine ⟨position, sound.known token record (List.mem_of_getElem? there), rows, row, loaded,
      atRow, ?_, key⟩
    rw [id, ← position, UInt64.ofNat_toNat]
  · intro holder
    have distinct := (placed.nodup_ids enforced).of_map
    have known := distinct.subperm (sound.known token)
    calc steps.countP (Step.transfers holder token)
      _ ≤ (committed token steps).countP (fun record => record.holder = holder) :=
        countP_transfers_le own
      _ ≤ (issued token steps).countP (fun record => record.holder = holder) :=
        known.countP_le _
      _ ≤ steps.countP (Step.issues holder token) := le_countP_issues own

/-- Alice takes the deed with the key for its first position. -/
theorem committed_of_run_first :
    let requests := contest ⟨"bob"⟩ ⟨"alice"⟩ ++ [.transfer ⟨"alice"⟩ (.ofData [1])]
    let steps := (fresh {}).steps requests
    (∀ request ∈ requests, request.isOwn = true) ∧
      committed (.ofData [1]) steps = [contestKey ⟨"alice"⟩] ∧
      contestKey ⟨"alice"⟩ ∈ issued (.ofData [1]) steps ∧
      ∃ rows row, ((fresh {}).after requests).store.loadRows (.ofData [1]) = .ok rows ∧
        rows[0]? = some row ∧ row.key = (contestKey ⟨"alice"⟩).key := by
  intro requests steps
  have own : ∀ request ∈ requests, request.isOwn = true := own_decided _ _ _
  have ends : committed (.ofData [1]) steps = [contestKey ⟨"alice"⟩] := committed_contest (.inr rfl)
  obtain ⟨_, known, rows, row, loaded, atRow, _, key⟩ :=
    (committed_of_run {} rfl own (.ofData [1])).2.1 0 (contestKey ⟨"alice"⟩) (by rw [ends]; rfl)
  exact ⟨own, ends, known, rows, row, loaded, atRow, key⟩

end Provenance.Registry
