import Provenance.Proofs.Registry.Accounts
set_option autoImplicit false

/-!
# Holders: whom a validation names

A row has a key, but no holder.  Whoever validates a token is told whom its last key
was issued to, and that is looked up among all the keys that were issued for the
token, the last one first.

A key is made of a position, a token and a passphrase and of nothing else, so holders
who choose the same passphrase for the same position are given the same key.
`holder_of_run` says whom a validation names after a transfer: whoever was given the
key of that transfer last.  This is the holder who asked for the transfer, unless
somebody else was given the same key since, as in `holder_of_run_lost`.
-/

namespace Provenance.Registry

/-- Who a key was issued to, the last time it was issued. -/
def lastHolder? (key : Key) (records : List KeyRecord) : Option Holder :=
  (records.reverse.find? fun record => record.key = key).map KeyRecord.holder

/-- A holder whom nobody followed with the same key is the last one. -/
theorem lastHolder?_of_unfollowed {record : KeyRecord} {before after : List KeyRecord}
    (unfollowed : ∀ other ∈ after, other.key = record.key → other.holder = record.holder) :
    lastHolder? record.key (before ++ record :: after) = some record.holder := by
  rw [lastHolder?, List.reverse_append, List.reverse_cons, List.append_assoc, List.find?_append]
  cases found : after.reverse.find? fun other => other.key = record.key with
  | some other =>
    have member := List.mem_reverse.mp (List.mem_of_find?_eq_some found)
    have same : other.key = record.key := by simpa using List.find?_some found
    rw [Option.some_or, Option.map_some, unfollowed other member same]
  | none => simp

variable {steps : List Step} {r : Registry} {token : Token}

theorem holderOf?_of_sound (sound : Sound steps r) (token : Token) (key : Key) :
    (r.store.ledger token).holderOf? key = lastHolder? key (issued token steps) := by
  rw [Ledger.holderOf?, sound.records, lastHolder?]

/-- Steps in which no transfer of a token is accepted commit none of its keys. -/
theorem committed_of_no_transfer
    (none : ∀ step ∈ steps, ∀ holder answer, step.request = .transfer holder token →
      step.response.result ≠ .ok answer) : committed token steps = [] := by
  refine List.filterMap_eq_nil_iff.mpr fun step member => ?_
  unfold Step.committed?
  split
  case h_1 holder other answer asked accepted =>
    refine if_neg fun same => ?_
    subst same
    exact none step member holder answer asked accepted
  case h_2 => rfl

/-- The validation of a token names the last position and whoever was given the last
committed key. -/
theorem validate_of_committed (sound : Sound steps r) {past : List KeyRecord}
    {record : KeyRecord} (ends : committed token steps = past ++ [record]) :
    (r.validate token).result = .ok
      { valid := true
        lastId := some (.ofNat past.length)
        holder := lastHolder? record.key (issued token steps)
        error := none } := by
  have member : record ∈ committed token steps := by
    rw [ends]
    exact List.mem_append_right _ (List.mem_singleton_self _)
  have registered := sound.registered member
  obtain ⟨registration, known⟩ := Option.isSome_iff_exists.mp registered
  have history := sound.loadRows registered
  rw [ends, List.map_append, List.map_singleton] at history
  obtain ⟨lastId, validated, last⟩ := Ledger.validate_of_history known history
  have position : lastId = some (.ofNat past.length) := by
    simp only [List.length_map, List.length_append, List.length_singleton,
      Nat.add_one_ne_zero, if_false, Nat.add_sub_cancel] at last
    obtain ⟨id, rfl, counted⟩ := Option.map_eq_some_iff.mp last
    rw [← counted, UInt64.ofNat_toNat]
  rw [validate, validated, position, List.getLast?_concat, Option.bind_some,
    holderOf?_of_sound sound]

/-- An accepted transfer commits the latest key of the holder, which was issued before,
and adds the next position. -/
theorem exists_committed_of_transferred {step : Step} {holder : Holder} {change : Change}
    {r' : Registry} (sound : Sound steps step.before)
    (outcome : Outcome step.before (fun token => (committed token steps).map KeyRecord.key)
      step.request step.response r')
    (asked : step.request = .transfer holder token)
    (accepted : step.response.result = .ok (.change change)) :
    ∃ record, step.committed? token = some record ∧ record.holder = holder ∧
      record ∈ issued token steps ∧ change.id = .ofNat (committed token steps).length := by
  have latest := Step.committed?_of_accepted asked accepted
  obtain ⟨before, request, response⟩ := step
  subst asked
  cases outcome with
  | refused lookups reason => cases accepted
  | @transferred _ _ registration record change' table registered room latest' differs fitting
      reported rows =>
    obtain ⟨member, same⟩ := Ledger.mem_of_latestKey? latest'
    rw [sound.records, List.mem_reverse] at member
    refine ⟨record, latest.trans latest', same, member, ?_⟩
    cases accepted
    rw [reported, Change.id_nth, List.length_map]

/-- **A validation names whoever was given the last key last.**  After any run on an
empty store, if a transfer of a token was accepted and none after it, the validation
of the token finds every link intact and the position of that transfer.  It names the
one whom the committed key was last issued to.  That is the holder who asked for the
transfer, whatever keys were issued before or since, as long as nobody else was given
the same key after that holder. -/
theorem holder_of_run (config : Config) {requests : List Request}
    (own : ∀ request ∈ requests, request.isOwn = true) {earlier later : List Step} {step : Step}
    (split : (fresh config).steps requests = earlier ++ step :: later) {holder : Holder}
    {token : Token} {change : Change} (asked : step.request = .transfer holder token)
    (accepted : step.response.result = .ok (.change change))
    (last : ∀ step ∈ later, ∀ other answer, step.request = .transfer other token →
      step.response.result ≠ .ok answer) :
    let records := issued token ((fresh config).steps requests)
    ∃ record, step.committed? token = some record ∧ record.holder = holder ∧
      record ∈ issued token earlier ∧
      (((fresh config).after requests).validate token).result = .ok
        { valid := true
          lastId := some change.id
          holder := lastHolder? record.key records
          error := none } ∧
      ∀ before after, records = before ++ record :: after →
        (∀ other ∈ after, other.key = record.key → other.holder = holder) →
        lastHolder? record.key records = some holder := by
  intro records
  obtain ⟨before, _, r', outcome⟩ := outcome_of_step own split
  obtain ⟨record, commits, same, member, position⟩ :=
    exists_committed_of_transferred before outcome asked accepted
  have quiet : committed token later = [] := committed_of_no_transfer last
  have ends : committed token ((fresh config).steps requests) =
      committed token earlier ++ [record] := by
    rw [split, committed, List.filterMap_append, List.filterMap_cons_some commits]
    exact congrArg (committed token earlier ++ record :: ·) quiet
  refine ⟨record, commits, same, member, ?_, ?_⟩
  · rw [position]
    exact validate_of_committed (sound_run config own).1 ends
  · intro before after whole unfollowed
    rw [whole, ← same]
    exact lastHolder?_of_unfollowed (same ▸ unfollowed)

/-! ## Two holders with one key -/

/-- A key of any passphrase is issued for the next position of a history. -/
theorem respond_issueKey_of_history {r : Registry} {token : Token} {l : Ledger}
    {keys : List Key} {registration : TokenRecord} (known : r.store.ledger token = l)
    (registered : l.record = some registration)
    (history : l.loadRows token = .ok (History.rows token keys))
    (room : keys.length < UInt64.size) (holder : Holder) (passphrase : String) :
    (r.respond (.issueKey holder token passphrase)).1.result =
      .ok (.key (Ledger.nextRecord token keys holder passphrase)) := by
  subst known
  rw [respond_issueKey, Ledger.issueKey_of_history registered history room]
  rfl

/-- A key that is issued for a history is added to the ledger. -/
theorem ledger_respond_issueKey {r : Registry} {token : Token} {l : Ledger} {keys : List Key}
    {registration : TokenRecord} (known : r.store.ledger token = l)
    (registered : l.record = some registration)
    (history : l.loadRows token = .ok (History.rows token keys))
    (room : keys.length < UInt64.size) (holder : Holder) (passphrase : String) :
    (r.respond (.issueKey holder token passphrase)).2.store.ledger token =
      { l with issued := Ledger.nextRecord token keys holder passphrase :: l.issued } := by
  subst known
  rw [respond_issueKey, Ledger.issueKey_of_history registered history room]
  simp [settled]

/-- A transfer to a key for the next position of a history is accepted. -/
theorem respond_transfer_of_history {r : Registry} {token : Token} {l : Ledger}
    {keys : List Key} {registration : TokenRecord} {holder : Holder} {record : KeyRecord}
    (known : r.store.ledger token = l) (registered : l.record = some registration)
    (history : l.loadRows token = .ok (History.rows token keys))
    (room : keys.length < UInt64.size) (latest : l.latestKey? holder = some record)
    (differs : keys.getLast? ≠ some record.key) (next : record.id = .ofNat keys.length) :
    (r.respond (.transfer holder token)).1.result =
      .ok (.change (.nth token keys.length record.key)) := by
  obtain ⟨_, _, transferred⟩ :=
    Ledger.transfer_of_history registered history room latest differs fun _ => next
  rw [respond_transfer, known, transferred]
  rfl

/-- A token that was just registered has the history of no keys. -/
theorem loadRows_of_empty {token : Token} {l : Ledger} (empty : l.table = some .empty) :
    l.loadRows token = .ok (History.rows token []) :=
  Ledger.loadRows_eq_ok_iff.mpr ⟨.empty, empty, rfl⟩

/-- A deed is created, and two holders choose the same passphrase for it. -/
def contest (first second : Holder) : List Request :=
  [.createToken "deed" [1], .issueKey first (.ofData [1]) "secret",
    .issueKey second (.ofData [1]) "secret"]

/-- The key that a holder is given in a contest. -/
def contestKey (holder : Holder) : KeyRecord :=
  Ledger.nextRecord (.ofData [1]) [] holder "secret"

theorem key_contestKey (holder other : Holder) :
    (contestKey holder).key = (contestKey other).key :=
  rfl

theorem own_contest (first second : Holder) :
    ∀ request ∈ contest first second, request.isOwn = true := by
  simp [contest, Request.isOwn]

theorem own_decided (first second holder : Holder) :
    ∀ request ∈ contest first second ++ [.transfer holder (.ofData [1])],
      request.isOwn = true := by
  simp [contest, Request.isOwn]

/-- The ledger of the deed: it has no rows yet, and both holders have the key. -/
def contestLedger (first second : Holder) : Ledger where
  record := some ⟨.ofData [1], "deed", [1]⟩
  issued := [contestKey second, contestKey first]
  table := some .empty

theorem ledger_deed :
    ((fresh {}).respond (.createToken "deed" [1])).2.store.ledger (.ofData [1]) =
      { record := some ⟨.ofData [1], "deed", [1]⟩, table := some .empty } := by
  rw [ledger_respond_createToken (by simp [fresh]), fresh, Store.ledger_empty]

theorem ledger_contest (first second : Holder) :
    ((fresh {}).after (contest first second)).store.ledger (.ofData [1]) =
      contestLedger first second := by
  have room : ([] : List Key).length < UInt64.size := by decide
  have once := ledger_respond_issueKey ledger_deed rfl (loadRows_of_empty rfl) room first "secret"
  have twice := ledger_respond_issueKey once rfl (loadRows_of_empty rfl) room second "secret"
  rw [contest, after_cons, after_cons, after_cons, after_nil, twice]
  rfl

theorem issued_contest (first second : Holder) :
    issued (.ofData [1]) ((fresh {}).steps (contest first second)) =
      [contestKey first, contestKey second] := by
  have records := (sound_run {} (own_contest first second)).1.records (.ofData [1])
  rw [ledger_contest] at records
  exact List.reverse_eq_iff.mp records.symm

theorem latestKey?_contest {first second holder : Holder}
    (takesPart : holder = first ∨ holder = second) :
    (contestLedger first second).latestKey? holder = some (contestKey holder) := by
  by_cases last : second = holder
  · by_cases both : first = holder <;>
      simp [Ledger.latestKey?, Ledger.latest?, contestLedger, contestKey, Ledger.nextRecord,
        last, both]
  · obtain rfl := takesPart.resolve_right (Ne.symm last)
    simp [Ledger.latestKey?, Ledger.latest?, contestLedger, contestKey, Ledger.nextRecord, last]

/-- Either of the two can take the deed. -/
theorem exists_step_of_contest {first second holder : Holder}
    (takesPart : holder = first ∨ holder = second) :
    ∃ step change,
      (fresh {}).steps (contest first second ++ [.transfer holder (.ofData [1])]) =
        (fresh {}).steps (contest first second) ++ [step] ∧
      step.request = .transfer holder (.ofData [1]) ∧
      step.response.result = .ok (.change change) ∧
      step.committed? (.ofData [1]) = some (contestKey holder) := by
  have latest := latestKey?_contest takesPart
  have room : ([] : List Key).length < UInt64.size := by decide
  have accepted := respond_transfer_of_history (ledger_contest first second) rfl
    (loadRows_of_empty rfl) room latest (by simp) rfl
  obtain ⟨step, split, before, asked, answered⟩ := exists_step_concat accepted
  refine ⟨step, _, split, asked, answered, ?_⟩
  rw [Step.committed?_of_accepted asked answered, before, Store.latestKey?, ledger_contest]
  exact latest

/-- Whoever takes the deed commits the one key that both were given. -/
theorem committed_contest {first second holder : Holder}
    (takesPart : holder = first ∨ holder = second) :
    committed (.ofData [1])
        ((fresh {}).steps (contest first second ++ [.transfer holder (.ofData [1])])) =
      [contestKey holder] := by
  obtain ⟨step, _, split, _, _, commits⟩ := exists_step_of_contest takesPart
  rw [split, committed_concat, commits]
  rfl

/-- Alice takes the deed, but it is Bob who is named: he was given her key after her. -/
theorem holder_of_run_lost :
    let requests := contest ⟨"alice"⟩ ⟨"bob"⟩ ++ [.transfer ⟨"alice"⟩ (.ofData [1])]
    (∀ request ∈ requests, request.isOwn = true) ∧
      ∃ earlier step change report, (fresh {}).steps requests = earlier ++ [step] ∧
        step.request = .transfer ⟨"alice"⟩ (.ofData [1]) ∧
        step.response.result = .ok (.change change) ∧
        (((fresh {}).after requests).validate (.ofData [1])).result = .ok report ∧
        report.holder = some ⟨"bob"⟩ ∧ report.holder ≠ some ⟨"alice"⟩ := by
  intro requests
  have own : ∀ request ∈ requests, request.isOwn = true := own_decided _ _ _
  have takesPart : (⟨"alice"⟩ : Holder) = ⟨"alice"⟩ ∨ (⟨"alice"⟩ : Holder) = ⟨"bob"⟩ := .inl rfl
  obtain ⟨step, change, split, asked, accepted, commits⟩ := exists_step_of_contest takesPart
  have ends : committed (.ofData [1]) ((fresh {}).steps requests) =
      [] ++ [contestKey ⟨"alice"⟩] := by
    rw [split, committed_concat, commits]
    rfl
  have report := validate_of_committed (sound_run {} own).1 ends
  have named : lastHolder? (contestKey ⟨"alice"⟩).key
      (issued (.ofData [1]) ((fresh {}).steps requests)) = some ⟨"bob"⟩ := by
    have whole : issued (.ofData [1]) ((fresh {}).steps requests) =
        [contestKey ⟨"alice"⟩] ++ contestKey ⟨"bob"⟩ :: [] := by
      rw [split, issued_concat_of_transfer asked, issued_contest]
      rfl
    rw [whole, key_contestKey ⟨"alice"⟩ ⟨"bob"⟩]
    exact lastHolder?_of_unfollowed (by simp)
  rw [named] at report
  exact ⟨own, _, step, change, _, split, asked, accepted, report, rfl, by decide⟩

/-- Bob was given the key before Alice, so she is named. -/
theorem holder_of_run_kept :
    let requests := contest ⟨"bob"⟩ ⟨"alice"⟩ ++ [.transfer ⟨"alice"⟩ (.ofData [1])]
    (∀ request ∈ requests, request.isOwn = true) ∧
      ∃ earlier step change, (fresh {}).steps requests = earlier ++ [step] ∧
        step.request = .transfer ⟨"alice"⟩ (.ofData [1]) ∧
        step.response.result = .ok (.change change) ∧
        (((fresh {}).after requests).validate (.ofData [1])).result = .ok
          { valid := true
            lastId := some change.id
            holder := some ⟨"alice"⟩
            error := none } := by
  intro requests
  have own : ∀ request ∈ requests, request.isOwn = true := own_decided _ _ _
  have takesPart : (⟨"alice"⟩ : Holder) = ⟨"bob"⟩ ∨ (⟨"alice"⟩ : Holder) = ⟨"alice"⟩ := .inr rfl
  obtain ⟨step, change, split, asked, accepted, commits⟩ := exists_step_of_contest takesPart
  obtain ⟨record, commits', same, _, report, named⟩ :=
    holder_of_run {} own split asked accepted (by simp)
  obtain rfl : contestKey ⟨"alice"⟩ = record := Option.some.inj (commits.symm.trans commits')
  have last := named [contestKey ⟨"bob"⟩] []
    (by rw [split, issued_concat_of_transfer asked, issued_contest]; rfl) (by simp)
  rw [last] at report
  exact ⟨own, _, step, change, split, asked, accepted, report⟩

end Provenance.Registry
