import Mathlib.Data.List.Induction
import Provenance.Proofs.Ledger.Lookups
import Provenance.Proofs.Registry.Outcome
set_option autoImplicit false

/-!
# Invariant: what a registry accounts for

A registry over a store that nobody else writes to keeps honest accounts.  The
invariant is `Sound`: the rows of a registered token are the history of the keys it
was transferred to, the issued keys in the store are those that were answered, and
no token was ever transferred to a key that had not been issued.  Every outcome
keeps it (`sound_of_outcome`), so it holds after every run (`sound_run`) and before
every step of one (`outcome_of_step`).
-/

namespace Provenance

namespace Registry

@[simp] theorem ledger_withLedger (r : Registry) (token other : Token) (l : Ledger) :
    (r.withLedger token l).store.ledger other =
      if token = other then l else r.store.ledger other := by
  rw [withLedger, Store.ledger_set]

/-! ## The invariant -/

/-- The registry has the rows and keys that the steps before it account for. -/
structure Sound (steps : List Step) (r : Registry) : Prop where
  histories : r.HasHistories fun token => (committed token steps).map KeyRecord.key
  unknown : ∀ token, (r.store.ledger token).record = none → committed token steps = []
  records : ∀ token, (r.store.ledger token).issued = (issued token steps).reverse
  known : ∀ token record, record ∈ committed token steps → record ∈ issued token steps

variable {steps : List Step} {r : Registry} {step : Step}

theorem sound_fresh (config : Config) : Sound [] (fresh config) where
  histories := by
    intro token registered
    simp [fresh] at registered
  unknown := fun _ _ => rfl
  records := by
    intro token
    simp [fresh, issued]
  known := fun _ _ member => by cases member

/-- The rows of a registered token are the history of the keys it was transferred to. -/
theorem Sound.loadRows (sound : Sound steps r) {token : Token}
    (registered : (r.store.getToken? token).isSome = true) :
    r.store.loadRows token =
      .ok (History.rows token ((committed token steps).map KeyRecord.key)) :=
  sound.histories token registered

/-- Only a registered token can have been transferred. -/
theorem Sound.registered (sound : Sound steps r) {token : Token} {record : KeyRecord}
    (member : record ∈ committed token steps) : (r.store.getToken? token).isSome = true := by
  cases known : r.store.getToken? token with
  | some registration => rfl
  | none =>
    rw [sound.unknown token known] at member
    cases member

/-- A step that issues and transfers nothing leaves the accounts as they are. -/
theorem sound_of_idle (sound : Sound steps r) (noIssue : ∀ token, step.issued? token = none)
    (noTransfer : ∀ token, step.committed? token = none) : Sound (steps ++ [step]) r := by
  have sameIssued : ∀ token, issued token (steps ++ [step]) =
      issued token steps := by
    intro token
    rw [issued_concat, noIssue]
    exact List.append_nil _
  have sameCommitted : ∀ token, committed token (steps ++ [step]) = committed token steps := by
    intro token
    rw [committed_concat, noTransfer]
    exact List.append_nil _
  refine ⟨?_, ?_, ?_, ?_⟩
  · simpa only [sameCommitted] using sound.histories
  · simpa only [sameCommitted] using sound.unknown
  · simpa only [sameIssued] using sound.records
  · simpa only [sameCommitted, sameIssued] using sound.known

/-- A step that is about one token has to account for that token only. -/
theorem sound_of_withLedger {token : Token} {l : Ledger} (sound : Sound steps r)
    (apart : ∀ other, other ≠ token → step.issued? other = none ∧ step.committed? other = none)
    (registered : l.record.isSome = true)
    (rows : l.loadRows token = .ok (History.rows token
      ((committed token (steps ++ [step])).map KeyRecord.key)))
    (records : l.issued = (issued token (steps ++ [step])).reverse)
    (known : ∀ record ∈ committed token (steps ++ [step]),
      record ∈ issued token (steps ++ [step])) :
    Sound (steps ++ [step]) (r.withLedger token l) := by
  have sameIssued : ∀ other, other ≠ token →
      issued other (steps ++ [step]) = issued other steps := by
    intro other differs
    rw [issued_concat, (apart other differs).1]
    exact List.append_nil _
  have sameCommitted : ∀ other, other ≠ token →
      committed other (steps ++ [step]) = committed other steps := by
    intro other differs
    rw [committed_concat, (apart other differs).2]
    exact List.append_nil _
  refine ⟨?_, ?_, ?_, ?_⟩
  · intro other there
    unfold Store.loadRows
    rw [ledger_withLedger] at there ⊢
    by_cases same : token = other
    · subst same
      rw [if_pos rfl]
      exact rows
    · rw [if_neg same] at there ⊢
      simp only [sameCommitted other (Ne.symm same)]
      exact sound.histories other there
  · intro other missing
    rw [ledger_withLedger] at missing
    by_cases same : token = other
    · rw [if_pos same] at missing
      rw [missing] at registered
      cases registered
    · rw [if_neg same] at missing
      rw [sameCommitted other (Ne.symm same)]
      exact sound.unknown other missing
  · intro other
    rw [ledger_withLedger]
    by_cases same : token = other
    · subst same
      rw [if_pos rfl]
      exact records
    · rw [if_neg same, sameIssued other (Ne.symm same)]
      exact sound.records other
  · intro other record member
    by_cases same : token = other
    · subst same
      exact known record member
    · rw [sameCommitted other (Ne.symm same)] at member
      rw [sameIssued other (Ne.symm same)]
      exact sound.known other record member

/-- **Every outcome keeps the accounts sound.** -/
theorem sound_of_outcome {request : Request} {response : Logged RegistryError Answer}
    {r' : Registry} (sound : Sound steps r)
    (outcome : Outcome r (fun token => (committed token steps).map KeyRecord.key)
      request response r') : Sound (steps ++ [⟨r, request, response⟩]) r' := by
  cases outcome with
  | refused lookups reason =>
    refine sound_of_idle sound (fun token => ?_) (fun token => ?_)
    · cases request <;> rfl
    · cases request <;> rfl
  | listed => exact sound_of_idle sound (fun _ => rfl) (fun _ => rfl)
  | searched registered => exact sound_of_idle sound (fun _ => rfl) (fun _ => rfl)
  | loaded registered loaded => exact sound_of_idle sound (fun _ => rfl) (fun _ => rfl)
  | validated registered last => exact sound_of_idle sound (fun _ => rfl) (fun _ => rfl)
  | @created title data unknown =>
    -- The token was not registered, so nothing was transferred before.
    refine sound_of_withLedger sound (fun _ _ => ⟨rfl, rfl⟩) rfl ?_ ?_ ?_
    · rw [committed_concat, sound.unknown _ unknown]
      rfl
    · rw [issued_concat, Step.issued?, Option.toList_none, List.append_nil]
      exact sound.records (.ofData data)
    · intro record member
      rw [committed_concat, sound.unknown _ unknown] at member
      cases member
  | @issued holder token passphrase registration record registered room next =>
    have now : (Step.mk r (.issueKey holder token passphrase)
        ⟨[Ledger.found registration, Ledger.found registration,
          .keyIssued token holder record.id record.key], .ok (.key record)⟩).issued? token =
          some record := if_pos rfl
    refine sound_of_withLedger sound (fun other differs => ⟨if_neg (Ne.symm differs), rfl⟩)
      (Option.isSome_of_eq_some registered) ?_ ?_ ?_
    · rw [committed_concat, Step.committed?, Option.toList_none, List.append_nil]
      exact sound.histories token (Option.isSome_of_eq_some registered)
    · rw [issued_concat, now, Option.toList_some, List.reverse_concat]
      exact congrArg (record :: ·) (sound.records token)
    · intro earlier member
      rw [committed_concat, Step.committed?, Option.toList_none, List.append_nil] at member
      rw [issued_concat]
      exact List.mem_append_left _ (sound.known token earlier member)
  | @transferred holder token registration record change table registered room latest differs
      fitting reported rows =>
    have now : (Step.mk r (.transfer holder token)
        ⟨[Ledger.found registration, Ledger.found registration, change.event token,
          .ownershipTransferred token holder
            (.ofNat ((committed token steps).map KeyRecord.key).length) change.hasOwner],
          .ok (.change change)⟩).committed? token = some record := (if_pos rfl).trans latest
    refine sound_of_withLedger sound (fun other differs => ⟨rfl, if_neg (Ne.symm differs)⟩)
      (Option.isSome_of_eq_some registered) ?_ ?_ ?_
    · rw [committed_concat, now, Option.toList_some, List.map_append]
      exact Ledger.loadRows_eq_ok_iff.mpr ⟨table, rfl, rows⟩
    · rw [issued_concat, Step.issued?, Option.toList_none, List.append_nil]
      exact sound.records token
    · intro earlier member
      rw [committed_concat, now, Option.toList_some, List.mem_append,
        List.mem_singleton] at member
      rw [issued_concat, Step.issued?, Option.toList_none, List.append_nil]
      rcases member with member | rfl
      · exact sound.known token earlier member
      · have there := (Ledger.mem_of_latestKey? latest).1
        rw [sound.records token] at there
        exact List.mem_reverse.mp there

/-! ## Whole runs -/

theorem config_of_outcome {keys : Token → List Key} {request : Request}
    {response : Logged RegistryError Answer} {r' : Registry}
    (outcome : Outcome r keys request response r') : r'.config = r.config := by
  cases outcome <;> rfl

/-- Every request to the registry itself keeps the accounts sound. -/
theorem sound_respond (sound : Sound steps r) {request : Request} (own : request.isOwn = true) :
    Sound (steps ++ [⟨r, request, (r.respond request).1⟩]) (r.respond request).2 :=
  sound_of_outcome sound (outcome_of_own sound.histories own)

/-- The accounts are sound after every run. -/
theorem sound_run (config : Config) {requests : List Request}
    (own : ∀ request ∈ requests, request.isOwn = true) :
    Sound ((fresh config).steps requests) ((fresh config).after requests) ∧
      ((fresh config).after requests).config = config := by
  induction requests using List.reverseRecOn with
  | nil => exact ⟨sound_fresh config, rfl⟩
  | append_singleton requests request ih =>
    obtain ⟨sound, same⟩ := ih fun request member => own request (List.mem_append_left _ member)
    have asked := own request (List.mem_append_right _ (List.mem_singleton_self _))
    have outcome := outcome_of_own sound.histories asked
    rw [steps_concat, after_concat]
    exact ⟨sound_respond sound asked, (config_of_outcome outcome).trans same⟩

/-- What is known of a step in the middle of a run. -/
theorem outcome_of_step {config : Config} {requests : List Request}
    (own : ∀ request ∈ requests, request.isOwn = true) {earlier later : List Step}
    (split : (fresh config).steps requests = earlier ++ step :: later) :
    Sound earlier step.before ∧ step.before.config = config ∧
      ∃ r', Outcome step.before (fun token => (committed token earlier).map KeyRecord.key)
        step.request step.response r' := by
  obtain ⟨past, request, future, rfl, rfl, rfl⟩ := exists_run_of_steps_eq split
  obtain ⟨sound, same⟩ := sound_run config fun request member =>
    own request (List.mem_append_left _ member)
  have asked := own request (List.mem_append_right _ List.mem_cons_self)
  exact ⟨sound, same, _, outcome_of_own sound.histories asked⟩

/-- No outcome takes a registration back. -/
theorem isSome_getToken?_of_outcome {keys : Token → List Key} {request : Request}
    {response : Logged RegistryError Answer} {r' : Registry} {token : Token}
    (outcome : Outcome r keys request response r')
    (registered : (r.store.getToken? token).isSome = true) :
    (r'.store.getToken? token).isSome = true := by
  have stays {other : Token} {l : Ledger}
      (kept : l.record.isSome = true ∨ l.record = (r.store.ledger other).record) :
      ((r.withLedger other l).store.getToken? token).isSome = true := by
    rw [Store.getToken?, ledger_withLedger]
    by_cases same : other = token
    · subst same
      rw [if_pos rfl]
      rcases kept with kept | kept
      · exact kept
      · rw [kept]
        exact registered
    · rw [if_neg same]
      exact registered
  cases outcome with
  | created unknown => exact stays (.inl rfl)
  | issued known room next => exact stays (.inr rfl)
  | transferred known room latest differs fitting reported rows => exact stays (.inr rfl)
  | _ => exact registered

/-- A token that is created is registered, and gets a table without rows. -/
theorem ledger_respond_createToken {r : Registry} {title : String} {data : List UInt8}
    (unknown : (r.store.ledger (.ofData data)).record = none) :
    (r.respond (.createToken title data)).2.store.ledger (.ofData data) =
      { r.store.ledger (.ofData data) with
        record := some ⟨.ofData data, title, data⟩, table := some .empty } := by
  rw [respond_createToken, Ledger.create_of_unknown unknown]
  simp only [settled, Store.ledger_set, if_true]

/-- A token that was asked to be created is registered from then on, whether or not
it had been before. -/
theorem isSome_getToken?_of_mem {config : Config} {requests : List Request}
    (own : ∀ request ∈ requests, request.isOwn = true) {title : String} {data : List UInt8}
    (member : .createToken title data ∈ requests) :
    (((fresh config).after requests).store.getToken? (.ofData data)).isSome = true := by
  induction requests using List.reverseRecOn with
  | nil => cases member
  | append_singleton requests request ih =>
    have earlier : ∀ request ∈ requests, request.isOwn = true :=
      fun request member => own request (List.mem_append_left _ member)
    obtain ⟨sound, _⟩ := sound_run config earlier
    have outcome := outcome_of_own sound.histories
      (own request (List.mem_append_right _ (List.mem_singleton_self _)))
    rw [after_concat]
    rcases List.mem_append.mp member with before | last
    · exact isSome_getToken?_of_outcome outcome (ih earlier before)
    · obtain rfl := List.mem_singleton.mp last
      cases known : ((fresh config).after requests).store.getToken? (.ofData data) with
      | some registration =>
        exact isSome_getToken?_of_outcome outcome (Option.isSome_of_eq_some known)
      | none =>
        rw [Store.getToken?, ledger_respond_createToken known, Option.isSome_some]

/-- A key that is issued is the one for the next position, and was asked for by the
holder it is recorded for. -/
theorem exists_passphrase_of_issued? {keys : Token → List Key} {request : Request}
    {response : Logged RegistryError Answer} {r' : Registry} {token : Token} {record : KeyRecord}
    (outcome : Outcome r keys request response r')
    (answered : (Step.mk r request response).issued? token = some record) :
    (keys token).length < UInt64.size ∧ ∃ passphrase,
      request = .issueKey record.holder token passphrase ∧ response.result = .ok (.key record) ∧
      record = Ledger.nextRecord token (keys token) record.holder passphrase := by
  cases outcome with
  | @issued holder other passphrase registration record' registered room next =>
    obtain ⟨rfl, rfl⟩ : other = token ∧ record' = record := by
      simp only [Step.issued?] at answered
      split at answered
      case isTrue same => exact ⟨same, Option.some.inj answered⟩
      case isFalse => cases answered
    subst next
    exact ⟨room, passphrase, rfl, rfl, rfl⟩
  | refused lookups reason => cases request <;> cases answered
  | _ => cases answered

/-- An issued key was answered to a request for the holder it is recorded for. -/
theorem exists_issue_of_mem_issued {config : Config} {requests : List Request}
    (own : ∀ request ∈ requests, request.isOwn = true) {earlier later : List Step}
    (split : (fresh config).steps requests = earlier ++ later) {token : Token}
    {record : KeyRecord} (member : record ∈ issued token earlier) :
    record.token = token ∧ ∃ issue ∈ earlier, ∃ passphrase,
      issue.request = .issueKey record.holder token passphrase ∧
      issue.response.result = .ok (.key record) := by
  obtain ⟨issue, there, answered⟩ := List.mem_filterMap.mp member
  obtain ⟨before, after, rfl⟩ := List.append_of_mem there
  rw [List.append_assoc, List.cons_append] at split
  obtain ⟨_, _, r', outcome⟩ := outcome_of_step own split
  obtain ⟨_, passphrase, asked, issued, next⟩ := exists_passphrase_of_issued? outcome answered
  exact ⟨by rw [next]; rfl, issue, there, passphrase, asked, issued⟩

end Registry

end Provenance
