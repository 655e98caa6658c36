import Provenance.Proofs.Registry.Holders
set_option autoImplicit false

/-!
# The trail: what the log of a run tells

A registry and the store below it log what they do.  In a run on an empty store that
nobody else writes to, the log is a faithful account of the store: which tokens were
registered and how many rows they have can be read off it (`Audit`), and whoever a
token was transferred to stands right behind the change that did it.

Every outcome of a request keeps the audit (`audit_of_outcome`), and
`trail_of_run` puts together what follows for whole runs.
-/

namespace Provenance

/-! ## What an event tells -/

namespace Event

/-- The number of the row that a change has added to a token. -/
def appliedId? (token : Token) : Event → Option Nat
  | .changeApplied other id _ _ => if other = token then some id.toNat else none
  | _ => none

/-- The position that a token was transferred at. -/
def transferredId? (token : Token) : Event → Option Nat
  | .ownershipTransferred other _ id _ => if other = token then some id.toNat else none
  | _ => none

/-- The title under which a store has taken in a token. -/
def storedTitle? (token : Token) : Event → Option String
  | .tokenStored other title => if other = token then some title else none
  | _ => none

/-- The title under which a registry has registered a token. -/
def createdTitle? (token : Token) : Event → Option String
  | .tokenCreated other title => if other = token then some title else none
  | _ => none

/-- Whether the event tells of neither a registration nor a transfer nor any damage. -/
def isQuiet : Event → Bool
  | .tokenFound .. | .tokenNotFound .. | .keyIssued .. | .chainValidated .. => true
  | _ => false

theorem isQuiet_of_isLookup {event : Event} (lookup : event.isLookup = true) :
    event.isQuiet = true := by
  cases event with
  | tokenFound | tokenNotFound => rfl
  | _ => cases lookup

/-- There is nothing to read off the event, and it is not worth a warning. -/
structure Silent (event : Event) : Prop where
  applied : ∀ token, event.appliedId? token = none
  transferred : ∀ token, event.transferredId? token = none
  stored : ∀ token, event.storedTitle? token = none
  created : ∀ token, event.createdTitle? token = none
  calm : event.level ≠ .warn

theorem silent_of_isQuiet {event : Event} (quiet : event.isQuiet = true) : event.Silent := by
  cases event with
  | tokenFound | tokenNotFound | keyIssued | chainValidated =>
    exact ⟨fun _ => rfl, fun _ => rfl, fun _ => rfl, fun _ => rfl, Level.noConfusion⟩
  | _ => cases quiet

end Event

namespace Change

/-- The event of the `n`-th transfer names the row before it, and the one before that if
there is one. -/
theorem exists_event_nth {n : Nat} (room : n < UInt64.size) (token : Token) (key : Key) :
    ∃ generatorId ownerId,
      (Change.nth token n key).event token =
        .changeApplied token (.ofNat n) generatorId ownerId ∧
      (1 ≤ n → generatorId.toNat + 1 = n) ∧
      ownerId.map UInt64.toNat = if 2 ≤ n then some (n - 2) else none := by
  cases n with
  | zero => exact ⟨0, none, rfl, by omega, rfl⟩
  | succ n =>
    cases n with
    | zero => exact ⟨0, none, rfl, fun _ => rfl, rfl⟩
    | succ n =>
      refine ⟨.ofNat (n + 1), some (.ofNat n), rfl, fun _ => ?_, ?_⟩
      · rw [UInt64.toNat_ofNat_of_lt' (by omega)]
      · rw [if_pos (by omega), Option.map_some, UInt64.toNat_ofNat_of_lt' (by omega)]
        rfl

theorem hasOwner_nth (token : Token) (n : Nat) (key : Key) :
    (Change.nth token n key).hasOwner = decide (2 ≤ n) := by
  cases n with
  | zero => rfl
  | succ n =>
    cases n with
    | zero => rfl
    | succ n => exact (decide_eq_true (by omega)).symm

end Change

namespace Registry

/-! ## The log -/

/-- The events of a run, in their order. -/
def log (steps : List Step) : List Event :=
  steps.flatMap fun step => step.response.events

theorem log_cons (step : Step) (steps : List Step) :
    log (step :: steps) = step.response.events ++ log steps :=
  List.flatMap_cons

theorem log_concat (steps : List Step) (step : Step) :
    log (steps ++ [step]) = log steps ++ step.response.events := by
  simp [log]

/-- An event of the log is one of some step, between those of the steps before it and
those of the steps after it. -/
theorem exists_step_of_log_eq {steps : List Step} {before after : List Event} {event : Event}
    (split : log steps = before ++ event :: after) :
    ∃ earlier step later front back, steps = earlier ++ step :: later ∧
      step.response.events = front ++ event :: back ∧ before = log earlier ++ front ∧
      after = back ++ log later := by
  induction steps generalizing before with
  | nil => simp [log] at split
  | cons first steps ih =>
    rw [log_cons, List.append_eq_append_iff] at split
    rcases split with ⟨rest, rfl, inner⟩ | ⟨rest, inner, tail⟩
    · obtain ⟨earlier, step, later, front, back, rfl, events, rfl, rfl⟩ := ih inner
      refine ⟨first :: earlier, step, later, front, back, rfl, events, ?_, rfl⟩
      rw [log_cons, List.append_assoc]
    · cases rest with
      | nil =>
        rw [List.append_nil] at inner
        obtain ⟨earlier, step, later, front, back, rfl, events, empty, rfl⟩ :=
          ih (show log steps = [] ++ event :: after from tail.symm)
        refine ⟨first :: earlier, step, later, front, back, rfl, events, ?_, rfl⟩
        rw [log_cons, List.append_assoc, ← empty, List.append_nil, inner]
      | cons head rest =>
        obtain ⟨rfl, rfl⟩ := List.cons.inj tail
        exact ⟨[], first, steps, before, rest, rfl, inner, rfl, rfl⟩

/-- The readings of a run and one step more. -/
theorem filterMap_log_concat {α : Type} (read : Event → Option α) (steps : List Step)
    (step : Step) :
    (log (steps ++ [step])).filterMap read =
      (log steps).filterMap read ++ step.response.events.filterMap read := by
  rw [log_concat, List.filterMap_append]

/-! ## The audit -/

/-- The title that a token is registered under, if it is. -/
def titles (r : Registry) (token : Token) : List String :=
  ((r.store.getToken? token).map TokenRecord.title).toList

/-- The registry has the registrations and the rows that the log of the steps before it
tells of, and nothing worth a warning was logged. -/
structure Audit (steps : List Step) (r : Registry) : Prop where
  applied : ∀ token, (log steps).filterMap (Event.appliedId? token) =
    List.range (committed token steps).length
  transferred : ∀ token, (log steps).filterMap (Event.transferredId? token) =
    List.range (committed token steps).length
  stored : ∀ token, (log steps).filterMap (Event.storedTitle? token) = r.titles token
  created : ∀ token, (log steps).filterMap (Event.createdTitle? token) = r.titles token
  /-- Only a registered token has a place for rows. -/
  vacant : ∀ token, (r.store.ledger token).record = none → (r.store.ledger token).table = none
  calm : ∀ event ∈ log steps, event.level ≠ .warn

/-- What a step adds to the log is what it does to the store: it leaves the registry
`r'` behind. -/
structure Entry (steps : List Step) (step : Step) (r' : Registry) : Prop where
  applied : ∀ token, step.response.events.filterMap (Event.appliedId? token) =
    (step.committed? token).toList.map fun _ => (committed token steps).length
  transferred : ∀ token, step.response.events.filterMap (Event.transferredId? token) =
    (step.committed? token).toList.map fun _ => (committed token steps).length
  stored : ∀ token, r'.titles token =
    step.before.titles token ++ step.response.events.filterMap (Event.storedTitle? token)
  created : ∀ token, r'.titles token =
    step.before.titles token ++ step.response.events.filterMap (Event.createdTitle? token)
  vacant : ∀ token, (r'.store.ledger token).record = none →
    (step.before.store.ledger token).record = none ∧
      (r'.store.ledger token).table = (step.before.store.ledger token).table
  calm : ∀ event ∈ step.response.events, event.level ≠ .warn

variable {steps : List Step} {r r' : Registry} {step : Step} {token : Token}

theorem audit_fresh (config : Config) : Audit [] (fresh config) where
  applied := fun _ => rfl
  transferred := fun _ => rfl
  stored := fun token => by simp [log, titles, fresh, Store.getToken?]
  created := fun token => by simp [log, titles, fresh, Store.getToken?]
  vacant := fun token _ => by simp [fresh]
  calm := fun event member => by cases member

/-- One committed key more is one number more. -/
theorem range_committed_concat (token : Token) (steps : List Step) (step : Step) :
    List.range (committed token (steps ++ [step])).length =
      List.range (committed token steps).length ++
        (step.committed? token).toList.map fun _ => (committed token steps).length := by
  rw [committed_concat, List.length_append]
  cases step.committed? token with
  | none => exact (List.append_nil _).symm
  | some record => exact List.range_succ

/-- **The audit goes on step by step.** -/
theorem Audit.concat (audit : Audit steps step.before) (entry : Entry steps step r') :
    Audit (steps ++ [step]) r' where
  applied token := by
    rw [filterMap_log_concat, audit.applied, entry.applied, range_committed_concat]
  transferred token := by
    rw [filterMap_log_concat, audit.transferred, entry.transferred, range_committed_concat]
  stored token := by rw [filterMap_log_concat, audit.stored, entry.stored]
  created token := by rw [filterMap_log_concat, audit.created, entry.created]
  vacant token unknown := by
    obtain ⟨unknown', same⟩ := entry.vacant token unknown
    rw [same]
    exact audit.vacant token unknown'
  calm event member := by
    rw [log_concat] at member
    exact (List.mem_append.mp member).elim (audit.calm event) (entry.calm event)

/-! ## One step -/

/-- Quiet events are the entry of a step that transfers nothing and leaves all
registrations and rows. -/
theorem entry_of_quiet (quiet : ∀ event ∈ step.response.events, event.isQuiet = true)
    (idle : ∀ token, step.committed? token = none)
    (same : ∀ token, (r'.store.ledger token).record = (step.before.store.ledger token).record ∧
      (r'.store.ledger token).table = (step.before.store.ledger token).table) :
    Entry steps step r' := by
  have sameTitles : ∀ token, r'.titles token = step.before.titles token := fun token =>
    congrArg (fun record => (record.map TokenRecord.title).toList) (same token).1
  have silent : ∀ event ∈ step.response.events, event.Silent := fun event member =>
    Event.silent_of_isQuiet (quiet event member)
  have nothing : ∀ {α : Type} (read : Event → Option α),
      (∀ event, event.Silent → read event = none) →
      step.response.events.filterMap read = [] := fun read unread =>
    List.filterMap_eq_nil_iff.mpr fun event member => unread event (silent event member)
  refine ⟨?_, ?_, ?_, ?_, ?_, fun event member => (silent event member).calm⟩
  · intro token
    rw [idle, nothing _ fun event silent => silent.applied token]
    rfl
  · intro token
    rw [idle, nothing _ fun event silent => silent.transferred token]
    rfl
  · intro token
    rw [sameTitles, nothing _ fun event silent => silent.stored token, List.append_nil]
  · intro token
    rw [sameTitles, nothing _ fun event silent => silent.created token, List.append_nil]
  · intro token unknown
    exact ⟨(same token).1.symm.trans unknown, (same token).2⟩

theorem titles_withLedger (r : Registry) (token other : Token) (l : Ledger) :
    (r.withLedger token l).titles other =
      if token = other then (l.record.map TokenRecord.title).toList else r.titles other := by
  unfold titles Store.getToken?
  rw [ledger_withLedger]
  split <;> rfl

/-- Writing the ledger of a registered token leaves those that are not registered. -/
theorem vacant_withLedger {l : Ledger} (registered : l.record.isSome = true) {other : Token}
    (missing : ((r.withLedger token l).store.ledger other).record = none) :
    (r.store.ledger other).record = none ∧
      ((r.withLedger token l).store.ledger other).table = (r.store.ledger other).table := by
  rw [ledger_withLedger] at missing ⊢
  split at missing
  case isTrue =>
    rw [missing] at registered
    cases registered
  case isFalse differs =>
    rw [if_neg differs]
    exact ⟨missing, rfl⟩

/-- The entry of a registration: one event of the store and one of the registry. -/
theorem entry_of_created {title : String} {data : List UInt8} {l : Ledger}
    (asked : step.request = .createToken title data)
    (events : step.response.events =
      [.tokenStored (.ofData data) title, .tokenCreated (.ofData data) title])
    (unknown : (step.before.store.ledger (.ofData data)).record = none)
    (registered : l.record = some ⟨.ofData data, title, data⟩) :
    Entry steps step (step.before.withLedger (.ofData data) l) := by
  have idle : ∀ token, step.committed? token = none := by
    intro token
    unfold Step.committed?
    rw [asked]
  have sameTitles : ∀ token, (step.before.withLedger (.ofData data) l).titles token =
      step.before.titles token ++ if Token.ofData data = token then [title] else [] := by
    intro token
    rw [titles_withLedger, registered]
    split
    case isTrue same =>
      rw [← same, titles, Store.getToken?, unknown]
      rfl
    case isFalse => exact (List.append_nil _).symm
  refine ⟨?_, ?_, ?_, ?_, ?_, ?_⟩
  · intro token
    rw [idle, events]
    rfl
  · intro token
    rw [idle, events]
    rfl
  · intro token
    rw [sameTitles, events]
    by_cases same : Token.ofData data = token <;>
      simp [List.filterMap_cons, Event.storedTitle?, same]
  · intro token
    rw [sameTitles, events]
    by_cases same : Token.ofData data = token <;>
      simp [List.filterMap_cons, Event.createdTitle?, same]
  · intro token missing
    exact vacant_withLedger (Option.isSome_of_eq_some registered) missing
  · intro event member
    rw [events] at member
    rcases List.mem_cons.mp member with rfl | member
    · exact Level.noConfusion
    · rw [List.mem_singleton.mp member]
      exact Level.noConfusion

/-- The entry of a transfer: the change of the store and then the transfer of the
registry, both with the number of keys that were committed before. -/
theorem entry_of_transferred {holder : Holder} {registration : TokenRecord} {record : KeyRecord}
    {change : Change} {l : Ledger} (asked : step.request = .transfer holder token)
    (accepted : step.response.result = .ok (.change change))
    (events : step.response.events =
      [Ledger.found registration, Ledger.found registration, change.event token,
        .ownershipTransferred token holder (.ofNat (committed token steps).length)
          change.hasOwner])
    (known : (step.before.store.ledger token).record = some registration)
    (room : (committed token steps).length < UInt64.size)
    (latest : step.before.store.latestKey? holder token = some record)
    (reported : change = .nth token (committed token steps).length record.key)
    (same : l.record = (step.before.store.ledger token).record) :
    Entry steps step (step.before.withLedger token l) := by
  obtain ⟨generatorId, ownerId, applied, _⟩ := Change.exists_event_nth room token record.key
  rw [← reported] at applied
  rw [applied] at events
  have number : (UInt64.ofNat (committed token steps).length).toNat =
      (committed token steps).length := UInt64.toNat_ofNat_of_lt' room
  generalize UInt64.ofNat (committed token steps).length = id at events number
  have commits : ∀ other, ((step.committed? other).toList.map fun _ =>
      (committed other steps).length) =
        if token = other then [(committed token steps).length] else [] := by
    intro other
    unfold Step.committed?
    rw [asked, accepted]
    by_cases differs : token = other
    · subst differs
      simp [latest]
    · simp [differs]
  have sameTitles : ∀ other, (step.before.withLedger token l).titles other =
      step.before.titles other := by
    intro other
    rw [titles_withLedger, same]
    split
    case isTrue equal => exact equal ▸ rfl
    case isFalse => rfl
  refine ⟨?_, ?_, ?_, ?_, ?_, ?_⟩
  · intro other
    rw [commits, events]
    by_cases differs : token = other <;>
      simp [List.filterMap_cons, Event.appliedId?, Ledger.found, differs, number]
  · intro other
    rw [commits, events]
    by_cases differs : token = other <;>
      simp [List.filterMap_cons, Event.transferredId?, Ledger.found, differs, number]
  · intro other
    rw [sameTitles, events]
    exact (List.append_nil _).symm
  · intro other
    rw [sameTitles, events]
    exact (List.append_nil _).symm
  · intro other missing
    exact vacant_withLedger (Option.isSome_of_eq_some (same.trans known)) missing
  · intro event member
    rw [events] at member
    simp only [List.mem_cons, List.not_mem_nil, or_false] at member
    rcases member with rfl | rfl | rfl | rfl <;> exact Level.noConfusion

/-- **Every outcome is entered as what it is.** -/
theorem entry_of_outcome {request : Request} {response : Logged RegistryError Answer}
    (outcome : Outcome r (fun token => (committed token steps).map KeyRecord.key)
      request response r') : Entry steps ⟨r, request, response⟩ r' := by
  have unchanged : ∀ token, (r.store.ledger token).record = (r.store.ledger token).record ∧
      (r.store.ledger token).table = (r.store.ledger token).table := fun _ => ⟨rfl, rfl⟩
  cases outcome with
  | refused lookups reason =>
    refine entry_of_quiet (fun event member => Event.isQuiet_of_isLookup (lookups event member))
      (fun token => ?_) unchanged
    cases request <;> rfl
  | listed => exact entry_of_quiet (by simp) (fun _ => rfl) unchanged
  | searched registered =>
    exact entry_of_quiet (by simp [Ledger.found, Event.isQuiet]) (fun _ => rfl) unchanged
  | loaded registered loaded =>
    exact entry_of_quiet (by simp [Ledger.found, Event.isQuiet]) (fun _ => rfl) unchanged
  | validated registered last =>
    exact entry_of_quiet (by simp [Ledger.found, Event.isQuiet]) (fun _ => rfl) unchanged
  | created unknown => exact entry_of_created rfl rfl unknown rfl
  | @issued holder token passphrase registration record registered room next =>
    refine entry_of_quiet (by simp [Ledger.found, Event.isQuiet]) (fun _ => rfl) fun other => ?_
    rw [ledger_withLedger]
    split
    case isTrue same => exact same ▸ ⟨rfl, rfl⟩
    case isFalse => exact ⟨rfl, rfl⟩
  | @transferred holder token registration record change table registered room latest differs
      fitting reported rows =>
    rw [List.length_map] at room reported
    refine entry_of_transferred rfl rfl ?_ registered room latest reported rfl
    rw [List.length_map]

/-! ## Whole runs -/

/-- The audit holds after every run. -/
theorem audit_run (config : Config) {requests : List Request}
    (own : ∀ request ∈ requests, request.isOwn = true) :
    Audit ((fresh config).steps requests) ((fresh config).after requests) := by
  induction requests using List.reverseRecOn with
  | nil => exact audit_fresh config
  | append_singleton requests request ih =>
    have earlier : ∀ request ∈ requests, request.isOwn = true :=
      fun request member => own request (List.mem_append_left _ member)
    have asked := own request (List.mem_append_right _ (List.mem_singleton_self _))
    have outcome := outcome_of_own (sound_run config earlier).1.histories asked
    rw [steps_concat, after_concat]
    exact (ih earlier).concat (entry_of_outcome outcome)

/-- The number of rows is that of the committed keys, also where there is no place for
any. -/
theorem length_rows_of_audit (sound : Sound steps r) (audit : Audit steps r) (token : Token) :
    ((r.store.loadRows token).toOption.getD []).length = (committed token steps).length := by
  cases known : (r.store.ledger token).record with
  | none =>
    rw [sound.unknown token known, Store.loadRows, Ledger.loadRows, Ledger.getTable,
      audit.vacant token known]
    rfl
  | some registration =>
    rw [sound.loadRows (Option.isSome_of_eq_some known)]
    exact (History.length_rows token _).trans (List.length_map _)

/-- A request that fails has logged no more than that it looked a registration up. -/
theorem isLookup_of_failed {keys : Token → List Key} {request : Request}
    {response : Logged RegistryError Answer} (outcome : Outcome r keys request response r')
    {e : RegistryError} (failed : response.result = .error e) :
    ∀ event ∈ response.events, event.isLookup = true := by
  cases outcome with
  | refused lookups reason => exact lookups
  | _ => cases failed

/-- **A change is applied by a transfer**, and nothing is logged in between. -/
theorem exists_transfer_of_applied {keys : Token → List Key} {request : Request}
    {response : Logged RegistryError Answer} (outcome : Outcome r keys request response r')
    {front back : List Event} {id generatorId : Position} {ownerId : Option Position}
    (split : response.events = front ++ .changeApplied token id generatorId ownerId :: back) :
    (∀ event ∈ front, event.isLookup = true) ∧
      (1 ≤ id.toNat → generatorId.toNat + 1 = id.toNat) ∧
      ownerId.map UInt64.toNat = (if 2 ≤ id.toNat then some (id.toNat - 2) else none) ∧
      ∃ holder change, request = .transfer holder token ∧
        response.result = .ok (.change change) ∧
        back = [.ownershipTransferred token holder id (decide (2 ≤ id.toNat))] := by
  have member : .changeApplied token id generatorId ownerId ∈ response.events := by
    rw [split]
    exact List.mem_append_right _ List.mem_cons_self
  cases outcome with
  | refused lookups reason => exact absurd (lookups _ member) Bool.false_ne_true
  | @transferred holder other registration record change table registered room latest differs
      fitting reported rows =>
    obtain ⟨generatorId', ownerId', applied, generator, owner⟩ :=
      Change.exists_event_nth room other record.key
    rw [reported, applied, Change.hasOwner_nth] at split
    have number : (UInt64.ofNat (keys other).length).toNat = (keys other).length :=
      UInt64.toNat_ofNat_of_lt' room
    generalize UInt64.ofNat (keys other).length = id' at split number
    -- The change is the third of the four events.
    rcases front with _ | ⟨first, _ | ⟨second, _ | ⟨third, _ | ⟨fourth, front⟩⟩⟩⟩ <;>
      simp only [Ledger.found, List.nil_append, List.cons_append, List.cons.injEq, reduceCtorEq,
        List.nil_eq_append_iff, Event.changeApplied.injEq, false_and, and_false] at split
    obtain ⟨rfl, rfl, ⟨rfl, rfl, rfl, rfl⟩, rfl⟩ := split
    rw [number]
    exact ⟨by simp [Event.isLookup], generator, owner, holder, change, rfl, rfl, rfl⟩
  | _ => simp [Ledger.found] at member

/-- **The log is a faithful account.**  In any run of a registry on an empty store,
however strict the registry is and whatever it was asked to do:

* the changes that were applied to a token number its rows from zero on, in their order,
  and so do its transfers;
* every change was applied by an accepted transfer.  It names the row before the new one
  and, from the third on, the row before that as the one with the written owner.  The
  next event is the transfer: the same row, the new holder, and whether an owner was
  written.  Before the two, the transfer has logged look-ups only;
* a request that failed has logged look-ups only;
* a token was stored once and created once under the title that it is registered under,
  and one that is not registered never;
* nothing was worth a warning. -/
theorem trail_of_run (config : Config) {requests : List Request}
    (own : ∀ request ∈ requests, request.isOwn = true) (token : Token) :
    let steps := (fresh config).steps requests
    let r := (fresh config).after requests
    let n := ((r.store.loadRows token).toOption.getD []).length
    (log steps).filterMap (Event.appliedId? token) = List.range n ∧
    (log steps).filterMap (Event.transferredId? token) = List.range n ∧
    (∀ before after id generatorId ownerId,
      log steps = before ++ .changeApplied token id generatorId ownerId :: after →
      (1 ≤ id.toNat → generatorId.toNat + 1 = id.toNat) ∧
      ownerId.map UInt64.toNat = (if 2 ≤ id.toNat then some (id.toNat - 2) else none) ∧
      ∃ earlier step later lookups holder change, steps = earlier ++ step :: later ∧
        step.request = .transfer holder token ∧ step.response.result = .ok (.change change) ∧
        before = log earlier ++ lookups ∧ (∀ event ∈ lookups, event.isLookup = true) ∧
        after = .ownershipTransferred token holder id (decide (2 ≤ id.toNat)) :: log later) ∧
    (∀ step ∈ steps, ∀ e, step.response.result = .error e →
      ∀ event ∈ step.response.events, event.isLookup = true) ∧
    (log steps).filterMap (Event.storedTitle? token) = r.titles token ∧
    (log steps).filterMap (Event.createdTitle? token) = r.titles token ∧
    ∀ event ∈ log steps, event.level ≠ .warn := by
  intro steps r n
  obtain ⟨sound, _⟩ := sound_run config own
  have audit := audit_run config own
  have rows : n = (committed token steps).length := length_rows_of_audit sound audit token
  refine ⟨?_, ?_, ?_, ?_, audit.stored token, audit.created token, audit.calm⟩
  · rw [rows]
    exact audit.applied token
  · rw [rows]
    exact audit.transferred token
  · intro before after id generatorId ownerId split
    obtain ⟨earlier, step, later, front, back, run, events, rfl, rfl⟩ :=
      exists_step_of_log_eq split
    obtain ⟨_, _, r', outcome⟩ := outcome_of_step own run
    obtain ⟨lookups, generator, owner, holder, change, asked, accepted, rfl⟩ :=
      exists_transfer_of_applied outcome events
    exact ⟨generator, owner, earlier, step, later, front, holder, change, run, asked, accepted,
      rfl, lookups, rfl⟩
  · intro step member e failed
    obtain ⟨earlier, later, run⟩ := List.append_of_mem member
    obtain ⟨_, _, r', outcome⟩ := outcome_of_step own run
    exact isLookup_of_failed outcome failed

/-- Alice takes the deed, and the log tells of one change. -/
theorem trail_of_run_contest :
    let requests := contest ⟨"alice"⟩ ⟨"bob"⟩ ++ [.transfer ⟨"alice"⟩ (.ofData [1])]
    (∀ request ∈ requests, request.isOwn = true) ∧
      (log ((fresh {}).steps requests)).filterMap (Event.appliedId? (.ofData [1])) = [0] := by
  intro requests
  have own : ∀ request ∈ requests, request.isOwn = true := own_decided _ _ _
  have takesPart : (⟨"alice"⟩ : Holder) = ⟨"alice"⟩ ∨ (⟨"alice"⟩ : Holder) = ⟨"bob"⟩ := .inl rfl
  obtain ⟨applied, _⟩ := trail_of_run {} own (.ofData [1])
  rw [length_rows_of_audit (sound_run {} own).1 (audit_run {} own), committed_contest takesPart]
    at applied
  exact ⟨own, applied⟩

end Registry

end Provenance
