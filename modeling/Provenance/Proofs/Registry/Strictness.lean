import Provenance.Proofs.Registry.Invariant
set_option autoImplicit false

/-!
# Strictness: checking stored chains changes no answer

A registry may check every chain that it loads, or not.  As long as nobody else
writes to its store the rows of a token are a history, and every link of a history
holds, so that the check never finds anything: with it and without it a run is
answered in the same way (`responses_checking`).
-/

namespace Provenance

namespace Ledger

variable (config : Config) {token : Token} {l : Ledger} {keys : List Key}

/-- A history is read in the same way with the check and without it. -/
theorem readChain_checking
    (history : l.record.isSome = true → l.loadRows token = .ok (History.rows token keys))
    (check : Bool) :
    l.readChain { config with validateOnLoad := check } token = l.readChain config token := by
  cases known : l.record with
  | none => rw [readChain_of_unknown known, readChain_of_unknown known]
  | some registration =>
    have rows := history (Option.isSome_of_eq_some known)
    obtain ⟨c, loaded, _, _, intact⟩ := exists_loadChain_of_history rows
    rw [readChain_of_loaded known loaded (admits_of_intact intact),
      readChain_of_loaded known loaded (admits_of_intact intact)]

theorem issueKey_checking
    (history : l.record.isSome = true → l.loadRows token = .ok (History.rows token keys))
    (check : Bool) (holder : Holder) (passphrase : String) :
    l.issueKey { config with validateOnLoad := check } token holder passphrase =
      l.issueKey config token holder passphrase := by
  rw [issueKey_eq, issueKey_eq]
  rw [readChain_checking config history]

theorem transfer_checking
    (history : l.record.isSome = true → l.loadRows token = .ok (History.rows token keys))
    (check : Bool) (holder : Holder) :
    l.transfer { config with validateOnLoad := check } token holder =
      l.transfer config token holder := by
  rw [transfer_eq, transfer_eq]
  rw [readChain_checking config history]
  rfl

end Ledger

namespace Registry

/-- The registry with the check of loaded chains turned on or off. -/
def checking (check : Bool) (r : Registry) : Registry :=
  { r with config := { r.config with validateOnLoad := check } }

theorem settled_checking {α : Type} (check : Bool) (r : Registry) (token : Token)
    (result : Except RegistryError (α × Ledger)) :
    (r.checking check).settled token result = (r.settled token result).checking check := by
  cases result <;> rfl

/-- A request is answered, and carried out, in the same way with the check and
without it. -/
theorem respond_checking {r : Registry} {keys : Token → List Key}
    (histories : r.HasHistories keys) {request : Request} (own : request.isOwn = true)
    (check : Bool) :
    (r.checking check).respond request =
      ((r.respond request).1, (r.respond request).2.checking check) := by
  cases request with
  | createToken title data =>
    rw [respond_createToken, respond_createToken]
    exact congrArg _ (settled_checking check r _ _)
  | searchToken token =>
    rw [respond_searchToken, respond_searchToken]
    rfl
  | listTokens => rfl
  | loadChain token =>
    have same := Ledger.readChain_checking r.config (histories token) check
    rw [respond_loadChain, respond_loadChain]
    simp only [checking, same]
  | issueKey holder token passphrase =>
    have same := Ledger.issueKey_checking r.config (histories token) check holder passphrase
    rw [respond_issueKey, respond_issueKey, settled_checking]
    simp only [checking, same]
  | transfer holder token =>
    have same := Ledger.transfer_checking r.config (histories token) check holder
    rw [respond_transfer, respond_transfer, settled_checking]
    simp only [checking, same]
  | validate token =>
    rw [respond_validate, respond_validate]
    rfl
  | store request => cases own

/-- **A run is answered in the same way with the check and without it.** -/
theorem responses_checking (config : Config) {requests : List Request}
    (own : ∀ request ∈ requests, request.isOwn = true) (check : Bool) :
    (((fresh config).checking check).steps requests).map Step.response =
        ((fresh config).steps requests).map Step.response ∧
      ((fresh config).checking check).after requests =
        ((fresh config).after requests).checking check := by
  induction requests using List.reverseRecOn with
  | nil => exact ⟨rfl, rfl⟩
  | append_singleton requests request ih =>
    have earlier : ∀ request ∈ requests, request.isOwn = true :=
      fun request member => own request (List.mem_append_left _ member)
    obtain ⟨responses, registries⟩ := ih earlier
    obtain ⟨sound, _⟩ := sound_run config earlier
    have asked := own request (List.mem_append_right _ (List.mem_singleton_self _))
    have same := respond_checking sound.histories asked check
    constructor
    · rw [steps_concat, steps_concat, List.map_append, List.map_append, responses, registries]
      simp only [List.map_cons, List.map_nil, same]
    · rw [after_concat, after_concat, registries, same]

end Registry

end Provenance
