import Provenance.Proofs.Registry.Sequence
import Provenance.Proofs.Text.Decimal
import Provenance.Proofs.Text.Hex
set_option autoImplicit false

/-!
# Fresh keys: a key that was just issued can be used

A key is issued for the next position, and no key of its token is for a greater one, so
it is the one that its holder uses for a transfer.  It was issued last, so its holder is
the one whom a validation names.  The only thing that can stand in the way is that it
holds the token already (`usable_of_run`).

Where keys are used in sequence, the last key was made for the position before, hence
from another text.  A fresh key that is refused there is one half of a collision of the
hash function.
-/

namespace Provenance

namespace Ledger

variable {l : Ledger} {record : KeyRecord} {records : List KeyRecord}

/-- Whoever was given a record last, for a position as great as any before it, uses it for
the next transfer. -/
theorem latestKey?_of_bounded {holder : Holder} (last : l.issued = record :: records)
    (own : record.holder = holder) (bounded : ∀ earlier ∈ records, earlier.id ≤ record.id) :
    l.latestKey? holder = some record := by
  rw [latestKey?, last, List.filter_cons, if_pos (decide_eq_true own)]
  exact latest?_cons_eq_some_iff.mpr
    (.inl ⟨rfl, fun earlier member => bounded earlier (List.mem_filter.mp member).1⟩)

end Ledger

namespace Registry

variable {config : Config} {token : Token} {holder : Holder} {steps : List Step} {r : Registry}

/-- In sequence the last row has a key that was made for its position. -/
theorem exists_passphrase_of_getLast? (sound : Sound steps r) (placed : Placed config token steps)
    (enforced : config.enforceKeySequence = true) {last : Element}
    (ends : (History.rows token ((committed token steps).map KeyRecord.key)).getLast? = some last) :
    last.id.toNat + 1 = (committed token steps).length ∧
      ∃ passphrase, last.key = .derive last.id token passphrase := by
  rcases List.eq_nil_or_concat (committed token steps) with empty | ⟨past, record, whole⟩
  · rw [empty] at ends
    cases ends
  · rw [List.concat_eq_append] at whole
    have there : (committed token steps)[past.length]? = some record := by
      rw [whole, List.getElem?_concat_length]
    have position := placed.id_of_getElem? enforced there
    obtain ⟨passphrase, made⟩ :=
      placed.derived record (sound.known token record (List.mem_of_getElem? there))
    rw [whole, List.map_append, List.map_singleton, History.getLast?_rows_concat,
      List.length_map, ← position, UInt64.ofNat_toNat] at ends
    obtain rfl := Option.some.inj ends
    refine ⟨?_, passphrase, made⟩
    rw [whole, List.length_append, List.length_singleton]
    exact congrArg (· + 1) position

/-- Where the last committed key is also the one that was issued last, a validation names
the holder it was issued to. -/
theorem validate_of_issued_last (sound : Sound steps r) {past before : List KeyRecord}
    {record : KeyRecord} (ends : committed token steps = past ++ [record])
    (last : issued token steps = before ++ [record]) :
    (r.validate token).result = .ok
      { valid := true
        lastId := some (.ofNat past.length)
        holder := some record.holder
        error := none } := by
  have named : lastHolder? record.key (before ++ record :: []) = some record.holder :=
    lastHolder?_of_unfollowed (by simp)
  rw [validate_of_committed sound ends, last, named]

/-! ## Issuing a key and using it -/

section
variable {keys : List Key} (sound : Sound steps r) (placed : Placed config token steps)
  (known : (committed token steps).map KeyRecord.key = keys)
  (registered : (r.store.getToken? token).isSome = true)
  (room : keys.length < UInt64.size) (holder : Holder) (passphrase : String)
include sound placed known registered room

/-- A key that is issued is for the position after the last row.  Its holder uses it for
the next transfer, whatever keys were issued before. -/
theorem respond_issueKey_of_sound :
    let record := Ledger.nextRecord token keys holder passphrase
    let issue := r.respond (.issueKey holder token passphrase)
    let l := issue.2.store.ledger token
    issue.1.result = .ok (.key record) ∧ ∃ registration, l.record = some registration ∧
      l.loadRows token = .ok (History.rows token keys) ∧ l.latestKey? holder = some record := by
  intro record issue l
  obtain ⟨registration, found⟩ := Option.isSome_iff_exists.mp registered
  have history := sound.loadRows registered
  rw [known] at history
  have grown : l = { r.store.ledger token with
      issued := record :: (r.store.ledger token).issued } :=
    ledger_respond_issueKey rfl found history room holder passphrase
  refine ⟨?_, registration, grown ▸ found, grown ▸ history, ?_⟩
  · exact respond_issueKey_of_history rfl found history room holder passphrase
  · refine Ledger.latestKey?_of_bounded (congrArg Ledger.issued grown) rfl fun earlier member => ?_
    rw [sound.records, List.mem_reverse] at member
    have before := placed.bounded earlier member
    rw [← List.length_map, known] at before
    rw [UInt64.le_iff_toNat_le]
    exact Nat.le_trans before (Nat.le_of_eq (UInt64.toNat_ofNat_of_lt' room).symm)

/-- A fresh key that holds the token already is refused for that reason. -/
theorem alreadyOwner_of_fresh
    (holds : keys.getLast? = some (Ledger.nextRecord token keys holder passphrase).key) :
    let issue := r.respond (.issueKey holder token passphrase)
    (issue.2.respond (.transfer holder token)).1.result = .error (.alreadyOwner holder) := by
  intro issue
  obtain ⟨_, registration, found, history, latest⟩ :=
    respond_issueKey_of_sound sound placed known registered room holder passphrase
  rw [respond_transfer, Ledger.transfer_of_holding found history latest holds]
  rfl

/-- **A fresh key that does not hold the token yet is accepted**, and whoever has it is
named by a validation afterwards. -/
theorem exists_change_of_fresh
    (differs : keys.getLast? ≠ some (Ledger.nextRecord token keys holder passphrase).key) :
    let record := Ledger.nextRecord token keys holder passphrase
    let issue := r.respond (.issueKey holder token passphrase)
    let transfer := issue.2.respond (.transfer holder token)
    ∃ change, transfer.1.result = .ok (.change change) ∧ change.id = record.id ∧
      (transfer.2.validate token).result = .ok
        { valid := true, lastId := some record.id, holder := some holder, error := none } := by
  intro record issue transfer
  obtain ⟨answered, registration, found, history, latest⟩ :=
    respond_issueKey_of_sound sound placed known registered room holder passphrase
  have accepted : transfer.1.result = .ok (.change (.nth token keys.length record.key)) :=
    respond_transfer_of_history rfl found history room latest differs rfl
  refine ⟨_, accepted, Change.id_nth .., ?_⟩
  -- The accounts are sound again after the two requests.
  let issuing : Step := ⟨r, .issueKey holder token passphrase, issue.1⟩
  let transferring : Step := ⟨issue.2, .transfer holder token, transfer.1⟩
  have sound' : Sound (steps ++ [issuing] ++ [transferring]) transfer.2 :=
    sound_respond (sound_respond sound rfl) rfl
  have ends : committed token (steps ++ [issuing] ++ [transferring]) =
      committed token steps ++ [record] := by
    have commits : transferring.committed? token = some record :=
      (Step.committed?_of_accepted rfl accepted).trans latest
    rw [committed_concat, commits, committed_concat, Step.committed?, Option.toList_none,
      List.append_nil, Option.toList_some]
  have last : issued token (steps ++ [issuing] ++ [transferring]) =
      issued token steps ++ [record] := by
    rw [issued_concat_of_transfer rfl, issued_concat, Step.issued?_of_answered rfl answered,
      Option.toList_some]
  have validated := validate_of_issued_last sound' ends last
  rw [← List.length_map KeyRecord.key, known] at validated
  exact validated

end

/-- **A key that was just issued can be used.**  After any run on an empty store, however
strict the registry is, and for every registered token that has not taken all positions:

* whoever asks for a key of any passphrase is given the one for the next position, which
  is the number of rows;
* unless this is the key of the last row, a transfer to its holder is accepted right
  after that, at that position, and a validation then finds the links intact, that
  position and that holder;
* in sequence the key of the last row was made for the position before, and no text that
  is hashed for the one position is hashed for the other.  If the transfer is refused,
  then two different texts have one digest. -/
theorem usable_of_run (config : Config) {requests : List Request}
    (own : ∀ request ∈ requests, request.isOwn = true) {token : Token}
    (registered : (((fresh config).after requests).store.getToken? token).isSome = true)
    (room : ∀ rows last, ((fresh config).after requests).store.loadRows token = .ok rows →
      rows.getLast? = some last → last.id < .greatest) :
    let r := (fresh config).after requests
    ∃ rows, r.store.loadRows token = .ok rows ∧ ∀ holder passphrase,
      let next : Position := .ofNat rows.length
      let key := Key.derive next token passphrase
      let issue := r.respond (.issueKey holder token passphrase)
      let transfer := issue.2.respond (.transfer holder token)
      next.toNat = rows.length ∧
      issue.1.result = .ok (.key { token, id := next, key, holder }) ∧
      (rows.getLast?.map Element.key ≠ some key →
        ∃ change, transfer.1.result = .ok (.change change) ∧ change.id = next ∧
          (transfer.2.validate token).result = .ok
            { valid := true, lastId := some next, holder := some holder, error := none }) ∧
      (rows.getLast?.map Element.key = some key →
        transfer.1.result = .error (.alreadyOwner holder)) ∧
      (config.enforceKeySequence = true → ∀ last, rows.getLast? = some last →
        last.id.toNat + 1 = rows.length ∧
        (∀ p p', Key.source last.id token p ≠ Key.source next token p') ∧
        ∃ earlier, last.key = .derive last.id token earlier ∧
          ∀ e, transfer.1.result = .error e →
            digest (Key.source last.id token earlier) =
              digest (Key.source next token passphrase)) := by
  intro r
  obtain ⟨sound, _⟩ := sound_run config own
  have placed := placed_run config token own
  let keys := (committed token ((fresh config).steps requests)).map KeyRecord.key
  have history : r.store.loadRows token = .ok (History.rows token keys) :=
    sound.loadRows registered
  have room' : keys.length < UInt64.size := by
    by_contra full
    obtain ⟨last, ends, greatest⟩ :=
      History.exists_last_of_full (Ledger.length_le_of_history history) full
    exact Position.lt_greatest_iff.mp (room _ last history ends) greatest
  refine ⟨_, history, fun holder passphrase => ?_⟩
  rw [History.length_rows, ← List.getLast?_map, History.map_key_rows]
  intro next key issue transfer
  have counted : next.toNat = keys.length := UInt64.toNat_ofNat_of_lt' room'
  have answered := respond_issueKey_of_sound sound placed rfl registered room' holder passphrase
  have refused := alreadyOwner_of_fresh sound placed rfl registered room' holder passphrase
  have accepted := exists_change_of_fresh sound placed rfl registered room' holder passphrase
  refine ⟨counted, answered.1, accepted, refused, fun enforced last ends => ?_⟩
  obtain ⟨position, earlier, made⟩ := exists_passphrase_of_getLast? sound placed enforced ends
  rw [← List.length_map KeyRecord.key] at position
  refine ⟨position, Key.source_ne_of_succ (counted.trans position.symm) token, earlier, made,
    fun e failed => ?_⟩
  have same : keys.getLast? = some key := by
    by_contra differs
    obtain ⟨change, succeeded, _⟩ := accepted differs
    cases failed.symm.trans succeeded
  rw [← History.map_key_rows token keys, List.getLast?_map, ends, Option.map_some, made] at same
  exact hash_eq_hash_iff.mp (congrArg Key.text (Option.some.inj same))

/-- When the deed was taken once, whoever asks for a key of it is given one for the
second position. -/
theorem usable_of_run_taken :
    let requests := contest ⟨"bob"⟩ ⟨"alice"⟩ ++ [.transfer ⟨"alice"⟩ (.ofData [1])]
    (∀ request ∈ requests, request.isOwn = true) ∧
      (((fresh {}).after requests).store.getToken? (.ofData [1])).isSome = true ∧
      ∃ rows, ((fresh {}).after requests).store.loadRows (.ofData [1]) = .ok rows ∧
        rows.length = 1 ∧ (∀ last, rows.getLast? = some last → last.id < .greatest) ∧
        ∀ holder passphrase,
          (((fresh {}).after requests).respond
              (.issueKey holder (.ofData [1]) passphrase)).1.result =
            .ok (.key ⟨.ofData [1], 1, .derive 1 (.ofData [1]) passphrase, holder⟩) := by
  intro requests
  have own : ∀ request ∈ requests, request.isOwn = true := own_decided _ _ _
  have registered : (((fresh {}).after requests).store.getToken? (.ofData [1])).isSome = true :=
    isSome_getToken?_of_mem own List.mem_cons_self
  have history := (sound_run {} own).1.loadRows registered
  have ends : committed (.ofData [1]) ((fresh {}).steps requests) = [contestKey ⟨"alice"⟩] :=
    committed_contest (.inr rfl)
  rw [ends, List.map_singleton] at history
  have room : ∀ rows last, ((fresh {}).after requests).store.loadRows (.ofData [1]) = .ok rows →
      rows.getLast? = some last → last.id < .greatest := by
    intro rows last loaded there
    obtain rfl := Except.ok.inj (history.symm.trans loaded)
    obtain rfl := Option.some.inj ((History.getLast?_rows_concat _ [] _).symm.trans there)
    exact Position.lt_greatest_iff.mpr (by decide)
  obtain ⟨rows, loaded, usable⟩ := usable_of_run {} own registered room
  have counted : rows.length = 1 := by
    rw [Except.ok.inj (loaded.symm.trans history), History.length_rows, List.length_singleton]
  rw [counted] at usable
  refine ⟨own, registered, rows, loaded, counted, fun last => room rows last loaded,
    fun holder passphrase => ?_⟩
  obtain ⟨_, answered, _⟩ := usable holder passphrase
  exact answered

end Registry

end Provenance
