import Provenance.Proofs.Ledger.Progress
import Provenance.Proofs.Registry.InPlace
set_option autoImplicit false

/-!
# Operations of a registry on one token

What the operations of a registry come to, each said once: on a registered token
whose chain loads and is admitted (`..._of_loaded`), and from there on a token whose
rows are a history (`..._of_history`).  In a history the last element waits for its
successor, so a transfer is refused for no other reason than its key or the end of
all positions.
-/

namespace Provenance

/-- Whether a refusal says no more than that a request does not fit: neither a store
nor a chain has failed, and no link is broken. -/
def RegistryError.isOrdinary : RegistryError → Bool
  | .store _ | .chain _ | .chainDamaged _ _ => false
  | _ => true

namespace Ledger

variable {config : Config} {token : Token} {l : Ledger} {registration : TokenRecord}
  {c : Chain} {holder : Holder} {keys : List Key}

/-! ## Registration -/

theorem create_of_unknown {record : TokenRecord} (unknown : l.record = none) :
    l.create record =
      ⟨[.tokenStored record.token record.title, .tokenCreated record.token record.title],
        .ok (record, { l with record := some record, table := some .empty })⟩ := by
  rw [create_eq, register_eq, unknown]
  rfl

theorem create_of_registered {record : TokenRecord} (registered : l.record = some registration) :
    l.create record = ⟨[], .error (.tokenExists record.token)⟩ := by
  rw [create_eq, register_eq, registered]
  rfl

/-! ## A token that is not registered -/

theorem search_of_unknown (unknown : l.record = none) :
    l.search token = ⟨[.tokenNotFound token], .error (.tokenNotFound token)⟩ := by
  unfold search
  rw [unknown]
  rfl

theorem readChain_of_unknown (unknown : l.record = none) :
    l.readChain config token = ⟨[.tokenNotFound token], .error (.tokenNotFound token)⟩ := by
  rw [readChain, search_of_unknown unknown, Logged.error_bind]

theorem issueKey_of_unknown (unknown : l.record = none) (passphrase : String) :
    l.issueKey config token holder passphrase =
      ⟨[.tokenNotFound token], .error (.tokenNotFound token)⟩ := by
  rw [issueKey_eq, search_of_unknown unknown, Logged.error_bind]

theorem transfer_of_unknown (unknown : l.record = none) :
    l.transfer config token holder =
      ⟨[.tokenNotFound token], .error (.tokenNotFound token)⟩ := by
  rw [transfer_eq, search_of_unknown unknown, Logged.error_bind]

theorem validate_of_unknown (unknown : l.record = none) :
    l.validate token = ⟨[.tokenNotFound token], .error (.tokenNotFound token)⟩ := by
  rw [validate, search_of_unknown unknown, Logged.error_bind]

/-! ## A registered token whose chain is read -/

/-- What is logged when a registration is looked up. -/
def found (registration : TokenRecord) : Event :=
  .tokenFound registration.token registration.title

theorem search_of_registered (registered : l.record = some registration) :
    l.search token = ⟨[found registration], .ok registration⟩ := by
  unfold search
  rw [registered]
  rfl

/-- A chain is admitted if its links hold, wherever the registry asks for that. -/
def Admits (config : Config) (c : Chain) : Prop :=
  config.validateOnLoad = true → c.brokenLink? = none

/-- An intact chain is admitted however strict the registry is. -/
theorem admits_of_intact (intact : c.brokenLink? = none) : Admits config c :=
  fun _ => intact

theorem readChain_of_loaded (registered : l.record = some registration)
    (loaded : l.loadChain token = .ok c) (admits : Admits config c) :
    l.readChain config token = ⟨[found registration], .ok c⟩ := by
  unfold readChain
  rw [search_of_registered registered, loaded]
  simp only [Logged.ok_bind, Logged.ofExcept_mapError_ok]
  cases check : config.validateOnLoad with
  | false => rfl
  | true =>
    rw [admits check]
    rfl

theorem readChain_of_unreadable (registered : l.record = some registration) {e : StoreError}
    (unreadable : l.loadChain token = .error e) :
    l.readChain config token = ⟨[found registration], .error (.store e)⟩ := by
  unfold readChain
  rw [search_of_registered registered, unreadable]
  rfl

theorem readChain_of_damaged (registered : l.record = some registration)
    (loaded : l.loadChain token = .ok c) {link : BrokenLink}
    (check : config.validateOnLoad = true) (damaged : c.brokenLink? = some link) :
    l.readChain config token =
      ⟨[found registration, .chainDamaged token link.id], .error (.chainDamaged token link)⟩ := by
  unfold readChain
  rw [search_of_registered registered, loaded]
  simp only [Logged.ok_bind, Logged.ofExcept_mapError_ok, check, damaged]
  rfl

/-- A key for the position that comes next in the chain that was read. -/
theorem issueKey_of_read (registered : l.record = some registration) {events : List Event}
    (read : l.readChain config token = ⟨events, .ok c⟩) {id : Position}
    (next : c.next? = some id) (passphrase : String) :
    let record : KeyRecord := ⟨token, id, c.keyAt id passphrase, holder⟩
    l.issueKey config token holder passphrase =
      ⟨found registration :: (events ++ [.keyIssued token holder id record.key]),
        .ok (record, { l with issued := record :: l.issued })⟩ := by
  intro record
  have inserted : l.insertKey record = .ok { l with issued := record :: l.issued } := by
    rw [insertKey_eq, registered]
    rfl
  rw [issueKey_eq, search_of_registered registered, read]
  simp only [Logged.ok_bind, Logged.ofExcept, nextPosition, next]
  rw [inserted]
  rfl

theorem issueKey_of_read_exhausted (registered : l.record = some registration)
    {events : List Event} (read : l.readChain config token = ⟨events, .ok c⟩)
    (exhausted : c.next? = none) (passphrase : String) :
    l.issueKey config token holder passphrase =
      ⟨found registration :: events, .error (.chain .positionsExhausted)⟩ := by
  rw [issueKey_eq, search_of_registered registered, read]
  simp only [Logged.ok_bind, Logged.ofExcept, nextPosition, exhausted, Logged.error_bind,
    List.append_nil]
  rfl

theorem issueKey_of_loaded (registered : l.record = some registration)
    (loaded : l.loadChain token = .ok c) (admits : Admits config c) {id : Position}
    (next : c.next? = some id) (passphrase : String) :
    let record : KeyRecord := ⟨token, id, c.keyAt id passphrase, holder⟩
    l.issueKey config token holder passphrase =
      ⟨[found registration, found registration, .keyIssued token holder id record.key],
        .ok (record, { l with issued := record :: l.issued })⟩ :=
  issueKey_of_read registered (readChain_of_loaded registered loaded admits) next passphrase

theorem issueKey_of_exhausted (registered : l.record = some registration)
    (loaded : l.loadChain token = .ok c) (admits : Admits config c)
    (exhausted : c.next? = none) (passphrase : String) :
    l.issueKey config token holder passphrase =
      ⟨[found registration, found registration], .error (.chain .positionsExhausted)⟩ :=
  issueKey_of_read_exhausted registered (readChain_of_loaded registered loaded admits) exhausted
    passphrase

/-- What cannot be read gets no key. -/
theorem issueKey_of_unread (registered : l.record = some registration) {events : List Event}
    {e : RegistryError} (unread : l.readChain config token = ⟨events, .error e⟩)
    (passphrase : String) :
    l.issueKey config token holder passphrase = ⟨found registration :: events, .error e⟩ := by
  rw [issueKey_eq, search_of_registered registered, unread]
  rfl

theorem validate_of_loaded (registered : l.record = some registration)
    (loaded : l.loadChain token = .ok c) (intact : c.brokenLink? = none) :
    l.validate token =
      ⟨[found registration, .chainValidated token true (c.last?.map Element.id)],
        .ok { valid := true
              lastId := c.last?.map Element.id
              holder := c.last?.bind fun last => l.holderOf? last.key
              error := none }⟩ := by
  unfold validate
  rw [search_of_registered registered, loaded]
  simp only [Logged.ok_bind, Logged.ofExcept_mapError_ok, intact]
  rfl

theorem validate_of_unreadable (registered : l.record = some registration) {e : StoreError}
    (unreadable : l.loadChain token = .error e) :
    l.validate token = ⟨[found registration], .error (.store e)⟩ := by
  unfold validate
  rw [search_of_registered registered, unreadable]
  rfl

/-- A broken link is reported, however strict the registry is. -/
theorem validate_of_damaged (registered : l.record = some registration)
    (loaded : l.loadChain token = .ok c) {link : BrokenLink}
    (damaged : c.brokenLink? = some link) :
    let lastId := c.last?.map Element.id
    l.validate token =
      ⟨[found registration, .validationFailed token link.id, .chainValidated token false lastId],
        .ok { valid := false, lastId, holder := none, error := some link }⟩ := by
  intro lastId
  unfold validate
  rw [search_of_registered registered, loaded]
  simp only [Logged.ok_bind, Logged.ofExcept_mapError_ok, damaged]
  rfl

/-! ## A transfer, check by check -/

/-- A key may be used unless it holds the token already, or is asked to be for the
next position and is not. -/
theorem authorize_eq_ok_iff {record : KeyRecord} :
    authorize config c record = .ok () ↔
      c.last?.map Element.key ≠ some record.key ∧
        (config.enforceKeySequence = true → c.next? = some record.id) := by
  unfold authorize nextPosition
  by_cases same : c.last?.map Element.key = some record.key
  · simp [same]
  · rw [if_neg same]
    cases config.enforceKeySequence with
    | false => simp [same]
    | true =>
      cases c.next? with
      | none => simp
      | some expected =>
        by_cases fitting : record.id = expected
        · simp [same, fitting]
        · simp [same, fitting, Ne.symm fitting]

theorem isOrdinary_of_authorize {record : KeyRecord} {e : RegistryError}
    (unauthorized : authorize config c record = .error e) :
    e.isOrdinary = true ∨ e = .chain .positionsExhausted ∧ c.next? = none := by
  unfold authorize nextPosition at unauthorized
  split at unauthorized
  · obtain rfl := Except.error.inj unauthorized
    exact .inl rfl
  · split at unauthorized
    · cases next : c.next? with
      | none =>
        rw [next] at unauthorized
        obtain rfl := Except.error.inj unauthorized
        exact .inr ⟨rfl, rfl⟩
      | some expected =>
        rw [next] at unauthorized
        simp only at unauthorized
        split at unauthorized
        · cases unauthorized
        · obtain rfl := Except.error.inj unauthorized
          exact .inl rfl
    · cases unauthorized

theorem transfer_of_unread (registered : l.record = some registration) {events : List Event}
    {e : RegistryError} (unread : l.readChain config token = ⟨events, .error e⟩) :
    l.transfer config token holder = ⟨found registration :: events, .error e⟩ := by
  rw [transfer_eq, search_of_registered registered, unread]
  rfl

theorem transfer_of_noKey (registered : l.record = some registration)
    (loaded : l.loadChain token = .ok c) (admits : Admits config c)
    (none : l.latestKey? holder = none) :
    l.transfer config token holder =
      ⟨[found registration, found registration], .error (.keyNotFound holder token)⟩ := by
  rw [transfer_eq, search_of_registered registered, readChain_of_loaded registered loaded admits]
  simp only [Logged.ok_bind, none]
  rfl

theorem transfer_of_unauthorized (registered : l.record = some registration)
    (loaded : l.loadChain token = .ok c) (admits : Admits config c) {record : KeyRecord}
    (latest : l.latestKey? holder = some record) {error : RegistryError}
    (unauthorized : authorize config c record = .error error) :
    l.transfer config token holder =
      ⟨[found registration, found registration], .error error⟩ := by
  rw [transfer_eq, search_of_registered registered, readChain_of_loaded registered loaded admits]
  simp only [Logged.ok_bind, latest, unauthorized]
  rfl

theorem transfer_of_refused (registered : l.record = some registration)
    (loaded : l.loadChain token = .ok c) (admits : Admits config c) {record : KeyRecord}
    (latest : l.latestKey? holder = some record)
    (authorized : authorize config c record = .ok ()) {error : ChainError}
    (refused : c.handOver record.key = .error error) :
    l.transfer config token holder =
      ⟨[found registration, found registration], .error (.chain error)⟩ := by
  rw [transfer_eq, search_of_registered registered, readChain_of_loaded registered loaded admits]
  simp only [Logged.ok_bind, latest, authorized, refused]
  rfl

theorem transfer_of_accepted (registered : l.record = some registration)
    (loaded : l.loadChain token = .ok c) (admits : Admits config c) {record : KeyRecord}
    (latest : l.latestKey? holder = some record)
    (authorized : authorize config c record = .ok ()) {c' : Chain} {change : Change}
    (accepted : c.handOver record.key = .ok (c', change)) :
    ∃ t', t'.newestFirst = c'.newestFirst ∧ l.transfer config token holder =
      ⟨[found registration, found registration, change.event token,
          .ownershipTransferred token holder change.id change.hasOwner],
        .ok (change, { l with table := some t' })⟩ := by
  obtain ⟨t', applied, rows⟩ := applyChange_eq_of_handOver loaded accepted
  refine ⟨t', rows, ?_⟩
  rw [transfer_eq, search_of_registered registered, readChain_of_loaded registered loaded admits]
  simp only [Logged.ok_bind, latest, authorized, accepted]
  simp only [Logged.ofExcept_mapError_ok, Logged.ok_bind, applied]
  rfl

end Ledger

/-! ## A token whose rows are a history -/

namespace Ledger

variable {config : Config} {token : Token} {l : Ledger} {registration : TokenRecord}
  {holder : Holder} {keys : List Key}

/-- The record of a key that is issued for the next position of a history. -/
def nextRecord (token : Token) (keys : List Key) (holder : Holder) (passphrase : String) :
    KeyRecord where
  token := token
  id := .ofNat keys.length
  key := .derive (.ofNat keys.length) token passphrase
  holder := holder

theorem issueKey_of_history (registered : l.record = some registration)
    (history : l.loadRows token = .ok (History.rows token keys))
    (room : keys.length < UInt64.size) (passphrase : String) :
    let record := nextRecord token keys holder passphrase
    l.issueKey config token holder passphrase =
      ⟨[found registration, found registration, .keyIssued token holder record.id record.key],
        .ok (record, { l with issued := record :: l.issued })⟩ := by
  obtain ⟨c, loaded, rfl, elements, intact⟩ := exists_loadChain_of_history history
  have next := Chain.next?_of_history elements (Nat.le_of_lt room)
  rw [if_pos room] at next
  exact issueKey_of_loaded registered loaded (admits_of_intact intact) next passphrase

theorem issueKey_of_full_history (registered : l.record = some registration)
    (history : l.loadRows token = .ok (History.rows token keys))
    (full : ¬keys.length < UInt64.size) (passphrase : String) :
    l.issueKey config token holder passphrase =
      ⟨[found registration, found registration], .error (.chain .positionsExhausted)⟩ := by
  obtain ⟨c, loaded, _, elements, intact⟩ := exists_loadChain_of_history history
  have next := Chain.next?_of_history elements (length_le_of_history history)
  rw [if_neg full] at next
  exact issueKey_of_exhausted registered loaded (admits_of_intact intact) next passphrase

/-- A history goes on with a key that fits: it does not hold the token yet, and is
for the next position where that is asked for. -/
theorem transfer_of_history (registered : l.record = some registration)
    (history : l.loadRows token = .ok (History.rows token keys))
    (room : keys.length < UInt64.size) {record : KeyRecord}
    (latest : l.latestKey? holder = some record)
    (differs : keys.getLast? ≠ some record.key)
    (fitting : config.enforceKeySequence = true → record.id = .ofNat keys.length) :
    let change := Change.nth token keys.length record.key
    ∃ t', t'.newestFirst = (History.rows token (keys ++ [record.key])).reverse ∧
      l.transfer config token holder =
        ⟨[found registration, found registration, change.event token,
            .ownershipTransferred token holder (.ofNat keys.length) change.hasOwner],
          .ok (change, { l with table := some t' })⟩ := by
  intro change
  obtain ⟨c, loaded, htoken, elements, intact⟩ := exists_loadChain_of_history history
  have next := Chain.next?_of_history elements (Nat.le_of_lt room)
  rw [if_pos room] at next
  have authorized : authorize config c record = .ok () := by
    refine authorize_eq_ok_iff.mpr ⟨?_, fun asked => ?_⟩
    · rw [Chain.map_key_last?_of_history elements]
      exact differs
    · rw [next, fitting asked]
  have takes : Chain.Takes (.ofNat keys.length) record.key c.newestFirst := by
    rw [elements]
    exact Chain.takes_of_history room differs
  obtain ⟨c', grown, accepted⟩ := Chain.exists_handOver_of_takes takes
  have reported : Change.extending c.token (.ofNat keys.length) record.key
      (c.newestFirst.map Element.id) = change := by
    rw [htoken, elements, History.map_id_reverse_rows]
    rfl
  rw [reported] at accepted
  obtain ⟨t', rows, transferred⟩ :=
    transfer_of_accepted registered loaded (admits_of_intact intact) latest authorized accepted
  refine ⟨t', ?_, ?_⟩
  · rw [rows, grown, htoken, elements, History.reverse_rows_concat]
  · rw [transferred, Change.id_nth]

/-- A history does not go on with the key it ends with. -/
theorem transfer_of_holding (registered : l.record = some registration)
    (history : l.loadRows token = .ok (History.rows token keys)) {record : KeyRecord}
    (latest : l.latestKey? holder = some record) (holds : keys.getLast? = some record.key) :
    l.transfer config token holder =
      ⟨[found registration, found registration], .error (.alreadyOwner record.holder)⟩ := by
  obtain ⟨c, loaded, _, elements, intact⟩ := exists_loadChain_of_history history
  have unauthorized : authorize config c record = .error (.alreadyOwner record.holder) :=
    if_pos ((Chain.map_key_last?_of_history elements).trans holds)
  exact transfer_of_unauthorized registered loaded (admits_of_intact intact) latest unauthorized

/-- What a transfer of a history comes to: it is refused for an ordinary reason, or
because all positions are taken, or it goes on with a key that fits. -/
theorem transfer_cases_of_history (config : Config) (holder : Holder)
    (registered : l.record = some registration)
    (history : l.loadRows token = .ok (History.rows token keys)) :
    (∃ e, l.transfer config token holder =
        ⟨[found registration, found registration], .error e⟩ ∧
      (e.isOrdinary = true ∨ e = .chain .positionsExhausted ∧ ¬keys.length < UInt64.size)) ∨
    ∃ record, l.latestKey? holder = some record ∧ keys.length < UInt64.size ∧
      keys.getLast? ≠ some record.key ∧
      (config.enforceKeySequence = true → record.id = .ofNat keys.length) := by
  obtain ⟨c, loaded, htoken, elements, intact⟩ := exists_loadChain_of_history history
  have admits : Admits config c := admits_of_intact intact
  have fits := length_le_of_history history
  have next := Chain.next?_of_history elements fits
  cases latest : l.latestKey? holder with
  | none => exact .inl ⟨_, transfer_of_noKey registered loaded admits latest, .inl rfl⟩
  | some record =>
    cases authorized : authorize config c record with
    | error e =>
      refine .inl ⟨e, transfer_of_unauthorized registered loaded admits latest authorized, ?_⟩
      rcases isOrdinary_of_authorize authorized with ordinary | ⟨exhausted, none⟩
      · exact .inl ordinary
      · refine .inr ⟨exhausted, fun room => ?_⟩
        rw [if_pos room, none] at next
        cases next
    | ok _ =>
      obtain ⟨differs, fitting⟩ := authorize_eq_ok_iff.mp authorized
      rw [Chain.map_key_last?_of_history elements] at differs
      by_cases room : keys.length < UInt64.size
      · rw [if_pos room] at next
        refine .inr ⟨record, rfl, room, differs, fun asked => ?_⟩
        exact Option.some.inj ((fitting asked).symm.trans next)
      · have refused := Chain.handOver_of_full_history elements fits room differs
        exact .inl ⟨_, transfer_of_refused registered loaded admits latest authorized refused,
          .inr ⟨rfl, room⟩⟩

/-- **A history is reported as valid**, with its last position and with whoever the
last key was issued to. -/
theorem validate_of_history (registered : l.record = some registration)
    (history : l.loadRows token = .ok (History.rows token keys)) :
    ∃ lastId, l.validate token =
        ⟨[found registration, .chainValidated token true lastId],
          .ok { valid := true, lastId, holder := keys.getLast?.bind l.holderOf?, error := none }⟩ ∧
      lastId.map UInt64.toNat = if keys.length = 0 then none else some (keys.length - 1) := by
  obtain ⟨c, loaded, htoken, elements, intact⟩ := exists_loadChain_of_history history
  refine ⟨c.last?.map Element.id, ?_, ?_⟩
  · rw [validate_of_loaded registered loaded intact, ← Chain.map_key_last?_of_history elements,
      Option.bind_map]
    rfl
  · have fits := length_le_of_history history
    rcases List.eq_nil_or_concat keys with rfl | ⟨keys, last, rfl⟩
    · rw [Chain.last?, elements]
      rfl
    · rw [List.concat_eq_append] at elements fits ⊢
      obtain ⟨older, rows⟩ := History.exists_reverse_rows_concat token keys last
      rw [List.length_append, List.length_singleton] at fits ⊢
      rw [Chain.last?, elements, rows, if_neg (Nat.succ_ne_zero _), Nat.add_sub_cancel]
      exact congrArg some (UInt64.toNat_ofNat_of_lt' fits)

end Ledger

end Provenance
