import Provenance.Proofs.Registry.Strictness
set_option autoImplicit false

/-!
# Accounts: what a run of a registry leaves behind

The conclusions of the invariant for whole runs, put together in `accounts_of_run`:
what the rows of a token are, where the keys of its transfers come from, what its
validation finds, and which errors can come up at all.
-/

namespace Provenance

/-- A history that has taken all positions ends with the greatest one. -/
theorem History.exists_last_of_full {token : Token} {keys : List Key}
    (fits : keys.length ≤ UInt64.size) (full : ¬keys.length < UInt64.size) :
    ∃ last, (History.rows token keys).getLast? = some last ∧ last.id = .greatest := by
  rcases List.eq_nil_or_concat keys with rfl | ⟨keys, key, rfl⟩
  · exact absurd (by decide) full
  · rw [List.concat_eq_append] at fits full ⊢
    rw [List.length_append, List.length_singleton] at fits full
    refine ⟨_, History.getLast?_rows_concat token keys key, ?_⟩
    have last : keys.length = UInt64.size - 1 := by omega
    rw [last]
    rfl

namespace Ledger

theorem isSome_holderOf? {l : Ledger} {record : KeyRecord} (member : record ∈ l.issued) :
    (l.holderOf? record.key).isSome = true := by
  rw [holderOf?, Option.isSome_map, List.find?_isSome]
  exact ⟨record, member, decide_eq_true rfl⟩

end Ledger

namespace Registry

/-- Whether a step met a token that had taken all positions: its last row had the
greatest one. -/
def Step.AtEnd (step : Step) : Prop :=
  ∃ token rows last, step.request.token? = some token ∧
    step.before.store.loadRows token = .ok rows ∧ rows.getLast? = some last ∧
    last.id = .greatest

variable {steps : List Step} {r : Registry} {step : Step} {token : Token}

/-- A token that has had keys has a holder: its last key was issued to somebody. -/
theorem isSome_holder_of_sound (sound : Sound steps r)
    (held : 0 < ((committed token steps).map KeyRecord.key).length) :
    (((committed token steps).map KeyRecord.key).getLast?.bind
      (r.store.ledger token).holderOf?).isSome = true := by
  rcases List.eq_nil_or_concat (committed token steps) with empty | ⟨earlier, last, ends⟩
  · rw [empty] at held
    cases held
  · rw [List.concat_eq_append] at ends
    have issuedLast : last ∈ (r.store.ledger token).issued := by
      rw [sound.records token, List.mem_reverse]
      refine sound.known token last ?_
      rw [ends]
      exact List.mem_append_right _ (List.mem_singleton_self last)
    rw [ends, List.map_append, List.map_singleton, List.getLast?_concat]
    exact Ledger.isSome_holderOf? issuedLast

/-- The validation of a registered token finds what the steps account for. -/
theorem exists_report_of_sound (sound : Sound steps r)
    (registered : (r.store.getToken? token).isSome = true) :
    let keys := (committed token steps).map KeyRecord.key
    ∃ report, (r.validate token).result = .ok report ∧ report.valid = true ∧
      report.error = none ∧
      report.lastId.map UInt64.toNat = (if keys.length = 0 then none else some (keys.length - 1)) ∧
      (0 < keys.length → report.holder.isSome = true) := by
  intro keys
  obtain ⟨registration, known⟩ := Option.isSome_iff_exists.mp registered
  have history := sound.loadRows registered
  obtain ⟨lastId, validated, last⟩ := Ledger.validate_of_history known history
  refine ⟨_, congrArg Logged.result validated, rfl, rfl, last, fun held => ?_⟩
  exact isSome_holder_of_sound sound held

/-- A step that transfers a token commits the latest key of its new holder, which
fits where the registry asks for it. -/
theorem exists_committed_of_outcome {keys : Token → List Key} {holder : Holder}
    {response : Logged RegistryError Answer} {answer : Answer} {r' : Registry}
    (outcome : Outcome r keys (.transfer holder token) response r')
    (accepted : response.result = .ok answer) :
    ∃ record, r.store.latestKey? holder token = some record ∧
      (r.config.enforceKeySequence = true → record.id.toNat = (keys token).length) := by
  cases outcome with
  | refused lookups reason => cases accepted
  | transferred registered room latest differs fitting reported rows =>
    refine ⟨_, latest, fun asked => ?_⟩
    rw [fitting asked]
    exact UInt64.toNat_ofNat_of_lt' room

/-- A step fails for an ordinary reason only, unless all positions are taken. -/
theorem isOrdinary_of_outcome {request : Request} {response : Logged RegistryError Answer}
    {r' : Registry} (sound : Sound steps r)
    (outcome : Outcome r (fun token => (committed token steps).map KeyRecord.key)
      request response r') {e : RegistryError} (failed : response.result = .error e) :
    e.isOrdinary = true ∨
      e = .chain .positionsExhausted ∧ (Step.mk r request response).AtEnd := by
  cases outcome with
  | refused lookups reason =>
    obtain rfl := Except.error.inj failed
    refine reason.imp_right fun ⟨exhausted, token, about, registered, full⟩ => ?_
    have history := sound.histories token registered
    obtain ⟨last, ends, greatest⟩ :=
      History.exists_last_of_full (Ledger.length_le_of_history history) full
    exact ⟨exhausted, token, _, last, about, history, ends, greatest⟩
  | _ => cases failed

/-- **A registry keeps honest accounts.**  After any run on an empty store, however
strict the registry is and whatever it was asked to do:

* the rows of a registered token are the history of the keys it was transferred to,
  its chain is reported as valid with the last position of that history, and whoever
  was given the last key is found as its holder;
* every transfer committed a key that had been issued for the token to its new
  holder, and for the position it added where the registry asks for that;
* every error was of an ordinary kind, except where all positions were taken: no
  broken link was met, and neither the store nor a chain failed;
* with the check of loaded chains and without it the answers are the same. -/
theorem accounts_of_run (config : Config) {requests : List Request}
    (own : ∀ request ∈ requests, request.isOwn = true) :
    let steps := (fresh config).steps requests
    let r := (fresh config).after requests
    (∀ token, (r.store.getToken? token).isSome = true →
      let keys := (committed token steps).map KeyRecord.key
      r.store.loadRows token = .ok (History.rows token keys) ∧
      ∃ report, (r.validate token).result = .ok report ∧ report.valid = true ∧
        report.error = none ∧
        report.lastId.map UInt64.toNat =
          (if keys.length = 0 then none else some (keys.length - 1)) ∧
        (0 < keys.length → report.holder.isSome = true)) ∧
    (∀ earlier step later holder token answer, steps = earlier ++ step :: later →
      step.request = .transfer holder token → step.response.result = .ok answer →
      ∃ record, step.committed? token = some record ∧
        (∃ issue ∈ earlier, ∃ passphrase,
          issue.request = .issueKey holder token passphrase ∧
          issue.response.result = .ok (.key record)) ∧
        (config.enforceKeySequence = true → record.id.toNat = (committed token earlier).length)) ∧
    (∀ step ∈ steps, ∀ e, step.response.result = .error e →
      e.isOrdinary = true ∨ e = .chain .positionsExhausted ∧ step.AtEnd) ∧
    ∀ check, ((fresh { config with validateOnLoad := check }).steps requests).map Step.response =
      steps.map Step.response := by
  intro steps r
  obtain ⟨sound, _⟩ := sound_run config own
  refine ⟨?_, ?_, ?_, ?_⟩
  · intro token registered
    exact ⟨sound.histories token registered, exists_report_of_sound sound registered⟩
  · intro earlier step later holder token answer split asked accepted
    obtain ⟨sound, same, r', outcome⟩ := outcome_of_step own split
    rw [asked] at outcome
    obtain ⟨record, latest, fitting⟩ := exists_committed_of_outcome outcome accepted
    obtain ⟨there, holderSame⟩ := Ledger.mem_of_latestKey? latest
    rw [sound.records token, List.mem_reverse] at there
    obtain ⟨_, issue, before, passphrase, issued, answered⟩ :=
      exists_issue_of_mem_issued own split there
    refine ⟨record, ?_, ⟨issue, before, passphrase, ?_, answered⟩, fun enforced => ?_⟩
    · exact (Step.committed?_of_accepted asked accepted).trans latest
    · rw [issued, holderSame]
    · rw [fitting (by rw [same]; exact enforced), List.length_map]
  · intro step member e failed
    obtain ⟨earlier, later, split⟩ := List.append_of_mem member
    obtain ⟨sound, _, r', outcome⟩ := outcome_of_step own split
    exact isOrdinary_of_outcome sound outcome failed
  · intro check
    exact (responses_checking config own check).1

/-- A deed is created, and sold to somebody who was given a key for it. -/
def sale : List Request :=
  [.createToken "deed" [1], .issueKey ⟨"alice"⟩ (.ofData [1]) "secret",
    .transfer ⟨"alice"⟩ (.ofData [1])]

theorem accounts_of_run_sale :
    (∀ request ∈ sale, request.isOwn = true) ∧
      (((fresh {}).after sale).store.getToken? (.ofData [1])).isSome = true ∧
      ∃ report, (((fresh {}).after sale).validate (.ofData [1])).result = .ok report ∧
        report.valid = true := by
  have own : ∀ request ∈ sale, request.isOwn = true := by decide
  have registered : (((fresh {}).after sale).store.getToken? (.ofData [1])).isSome = true :=
    isSome_getToken?_of_mem own List.mem_cons_self
  obtain ⟨_, report, validated, valid, _⟩ := (accounts_of_run {} own).1 _ registered
  exact ⟨own, registered, report, validated, valid⟩

end Registry

end Provenance
