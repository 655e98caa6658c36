import Provenance.Proofs.Registry.Operations
import Provenance.Proofs.Registry.Run
set_option autoImplicit false

/-!
# Outcomes: what a request can come to

On a registry whose registered tokens have histories (`HasHistories`), a request of
the registry itself comes to one of a few things, and `Outcome` lists them with all
that is known in each case: what was answered and logged, and which registry is left
behind.  Only three of them change anything: a token is registered, a key is issued,
or a token goes on by one key.
-/

namespace Provenance

/-- Whether an event tells no more than that a registration was looked up. -/
def Event.isLookup : Event → Bool
  | .tokenFound .. | .tokenNotFound .. => true
  | _ => false

namespace Registry

/-- Every registered token has the rows of a history, the one of its keys. -/
def HasHistories (r : Registry) (keys : Token → List Key) : Prop :=
  ∀ token, (r.store.ledger token).record.isSome = true →
    r.store.loadRows token = .ok (History.rows token (keys token))

/-- The registry with another ledger for a token. -/
def withLedger (r : Registry) (token : Token) (l : Ledger) : Registry :=
  { r with store := r.store.set token l }

/-- What a request comes to: its response and the registry after it. -/
inductive Outcome (r : Registry) (keys : Token → List Key) :
    Request → Logged RegistryError Answer → Registry → Prop where
  | refused {request : Request} {events : List Event} {e : RegistryError}
      (lookups : ∀ event ∈ events, event.isLookup = true)
      (reason : e.isOrdinary = true ∨ e = .chain .positionsExhausted ∧
        ∃ token, request.token? = some token ∧
          (r.store.ledger token).record.isSome = true ∧ ¬(keys token).length < UInt64.size) :
      Outcome r keys request ⟨events, .error e⟩ r
  | listed : Outcome r keys .listTokens ⟨[], .ok (.tokens r.tokens)⟩ r
  | searched {token : Token} {registration : TokenRecord}
      (registered : (r.store.ledger token).record = some registration) :
      Outcome r keys (.searchToken token)
        ⟨[Ledger.found registration], .ok (.record registration)⟩ r
  | loaded {token : Token} {registration : TokenRecord} {chain : Chain}
      (registered : (r.store.ledger token).record = some registration)
      (loaded : r.store.loadChain token = .ok chain) :
      Outcome r keys (.loadChain token) ⟨[Ledger.found registration], .ok (.chain chain)⟩ r
  | validated {token : Token} {registration : TokenRecord} {lastId : Option Position}
      (registered : (r.store.ledger token).record = some registration)
      (last : lastId.map UInt64.toNat =
        if (keys token).length = 0 then none else some ((keys token).length - 1)) :
      Outcome r keys (.validate token)
        ⟨[Ledger.found registration, .chainValidated token true lastId],
          .ok (.report { valid := true
                         lastId
                         holder := (keys token).getLast?.bind (r.store.ledger token).holderOf?
                         error := none })⟩ r
  | created {title : String} {data : List UInt8}
      (unknown : (r.store.ledger (.ofData data)).record = none) :
      Outcome r keys (.createToken title data)
        ⟨[.tokenStored (.ofData data) title, .tokenCreated (.ofData data) title],
          .ok (.record ⟨.ofData data, title, data⟩)⟩
        (r.withLedger (.ofData data)
          { r.store.ledger (.ofData data) with
            record := some ⟨.ofData data, title, data⟩, table := some .empty })
  | issued {holder : Holder} {token : Token} {passphrase : String}
      {registration : TokenRecord} {record : KeyRecord}
      (registered : (r.store.ledger token).record = some registration)
      (room : (keys token).length < UInt64.size)
      (next : record = Ledger.nextRecord token (keys token) holder passphrase) :
      Outcome r keys (.issueKey holder token passphrase)
        ⟨[Ledger.found registration, Ledger.found registration,
          .keyIssued token holder record.id record.key], .ok (.key record)⟩
        (r.withLedger token
          { r.store.ledger token with issued := record :: (r.store.ledger token).issued })
  | transferred {holder : Holder} {token : Token} {registration : TokenRecord}
      {record : KeyRecord} {change : Change} {table : RowTable}
      (registered : (r.store.ledger token).record = some registration)
      (room : (keys token).length < UInt64.size)
      (latest : r.store.latestKey? holder token = some record)
      (differs : (keys token).getLast? ≠ some record.key)
      (fitting : r.config.enforceKeySequence = true → record.id = .ofNat (keys token).length)
      (reported : change = .nth token (keys token).length record.key)
      (rows : table.newestFirst = (History.rows token (keys token ++ [record.key])).reverse) :
      Outcome r keys (.transfer holder token)
        ⟨[Ledger.found registration, Ledger.found registration, change.event token,
          .ownershipTransferred token holder (.ofNat (keys token).length) change.hasOwner],
          .ok (.change change)⟩
        (r.withLedger token { r.store.ledger token with table := some table })

variable {r : Registry} {keys : Token → List Key}

/-- A request about a token that is not registered is refused. -/
theorem outcome_of_unknown {request : Request} {token : Token} :
    Outcome r keys request ⟨[.tokenNotFound token], .error (.tokenNotFound token)⟩ r := by
  refine .refused ?_ (.inl rfl)
  intro event member
  rw [List.mem_singleton.mp member]
  rfl

/-- A refusal of a registered token is logged as two look-ups. -/
theorem outcome_of_refused {request : Request} {registration : TokenRecord}
    {e : RegistryError}
    (reason : e.isOrdinary = true ∨ e = .chain .positionsExhausted ∧
      ∃ token, request.token? = some token ∧
        (r.store.ledger token).record.isSome = true ∧ ¬(keys token).length < UInt64.size) :
    Outcome r keys request
      ⟨[Ledger.found registration, Ledger.found registration], .error e⟩ r := by
  refine .refused ?_ reason
  intro event member
  rcases List.mem_cons.mp member with rfl | member
  · rfl
  · rw [List.mem_singleton.mp member]
    rfl

/-- **Every request of the registry itself has one of the listed outcomes.** -/
theorem outcome_of_own (histories : r.HasHistories keys) {request : Request}
    (own : request.isOwn = true) :
    Outcome r keys request (r.respond request).1 (r.respond request).2 := by
  cases request with
  | createToken title data =>
    rw [respond_createToken]
    cases known : (r.store.ledger (.ofData data)).record with
    | none =>
      rw [Ledger.create_of_unknown known]
      exact .created known
    | some registration =>
      rw [Ledger.create_of_registered known]
      exact .refused (by simp) (.inl rfl)
  | searchToken token =>
    rw [respond_searchToken]
    cases known : (r.store.ledger token).record with
    | none =>
      rw [Ledger.search_of_unknown known]
      exact outcome_of_unknown
    | some registration =>
      rw [Ledger.search_of_registered known]
      exact .searched known
  | listTokens => exact .listed
  | loadChain token =>
    rw [respond_loadChain]
    cases known : (r.store.ledger token).record with
    | none =>
      rw [Ledger.readChain_of_unknown known]
      exact outcome_of_unknown
    | some registration =>
      have history := histories token (Option.isSome_of_eq_some known)
      obtain ⟨c, loaded, _, _, intact⟩ := Ledger.exists_loadChain_of_history history
      rw [Ledger.readChain_of_loaded known loaded (Ledger.admits_of_intact intact)]
      exact .loaded known loaded
  | issueKey holder token passphrase =>
    rw [respond_issueKey]
    cases known : (r.store.ledger token).record with
    | none =>
      rw [Ledger.issueKey_of_unknown known]
      exact outcome_of_unknown
    | some registration =>
      have history := histories token (Option.isSome_of_eq_some known)
      by_cases room : (keys token).length < UInt64.size
      · rw [Ledger.issueKey_of_history known history room]
        exact .issued known room rfl
      · rw [Ledger.issueKey_of_full_history known history room]
        exact outcome_of_refused (.inr ⟨rfl, token, rfl, Option.isSome_of_eq_some known, room⟩)
  | transfer holder token =>
    rw [respond_transfer]
    cases known : (r.store.ledger token).record with
    | none =>
      rw [Ledger.transfer_of_unknown known]
      exact outcome_of_unknown
    | some registration =>
      have history := histories token (Option.isSome_of_eq_some known)
      rcases Ledger.transfer_cases_of_history r.config holder known history with
        ⟨e, refused, reason⟩ | ⟨record, latest, room, differs, fitting⟩
      · rw [refused]
        refine outcome_of_refused (reason.imp_right fun ⟨exhausted, full⟩ => ?_)
        exact ⟨exhausted, token, rfl, Option.isSome_of_eq_some known, full⟩
      · obtain ⟨table, rows, transferred⟩ :=
          Ledger.transfer_of_history known history room latest differs fitting
        rw [transferred]
        exact .transferred known room latest differs fitting rfl rows
  | validate token =>
    rw [respond_validate]
    cases known : (r.store.ledger token).record with
    | none =>
      rw [Ledger.validate_of_unknown known]
      exact outcome_of_unknown
    | some registration =>
      have history := histories token (Option.isSome_of_eq_some known)
      obtain ⟨lastId, validated, last⟩ := Ledger.validate_of_history known history
      rw [validated]
      exact .validated known last
  | store request => cases own

end Registry

end Provenance
