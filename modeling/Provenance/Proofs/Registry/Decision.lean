import Provenance.Proofs.Registry.Invariant
set_option autoImplicit false

/-!
# Decision: when a transfer is carried out

A registry checks a good deal before it transfers a token, and stores may hold
anything: keys that were forced upon them, and rows that form no chain or one with
broken links.  `Check` lists the checks, `Check.Fails` says for each of them, on its
own, when it fails and what is answered then.

`respond_transfer_decided` says that the checks decide.  A refused transfer is
answered by the first check that fails, it is carried out exactly when none does, and
then it has changed nothing but the rows of its token.  Whatever is refused has
changed nothing.
-/

namespace Provenance

namespace Ledger

/-! ## The checks -/

/-- What a registry checks before it transfers a token to a holder. -/
inductive Check where
  /-- The token is registered. -/
  | registered
  /-- Its rows are a chain. -/
  | readable
  /-- Every link holds, if the registry checks chains. -/
  | intact
  /-- A key was issued to the holder. -/
  | issued
  /-- The key of the holder is not the one that holds the token. -/
  | newKey
  /-- There is a next position, if keys have to be for it. -/
  | nextKnown
  /-- The key is for the next position, if keys have to be. -/
  | inSequence
  /-- The last element is not committed to a successor. -/
  | unbound
  /-- There is a next position. -/
  | room
  deriving DecidableEq, Repr, Inhabited

namespace Check

/-- The place of a check in the order in which they are made. -/
def place : Check → Nat
  | .registered => 0
  | .readable => 1
  | .intact => 2
  | .issued => 3
  | .newKey => 4
  | .nextKnown => 5
  | .inSequence => 6
  | .unbound => 7
  | .room => 8

/-- When a check fails, and what is answered if it is the first one that does. -/
inductive Fails (config : Config) (token : Token) (holder : Holder) (l : Ledger) :
    Check → RegistryError → Prop where
  | registered (unknown : l.record = none) :
      Fails config token holder l .registered (.tokenNotFound token)
  | readable {e : StoreError} (unreadable : l.loadChain token = .error e) :
      Fails config token holder l .readable (.store e)
  | intact {c : Chain} {link : BrokenLink} (check : config.validateOnLoad = true)
      (loaded : l.loadChain token = .ok c) (damaged : c.brokenLink? = some link) :
      Fails config token holder l .intact (.chainDamaged token link)
  | issued (none : l.latestKey? holder = none) :
      Fails config token holder l .issued (.keyNotFound holder token)
  | newKey {c : Chain} {last : Element} {record : KeyRecord}
      (loaded : l.loadChain token = .ok c) (ends : c.last? = some last)
      (latest : l.latestKey? holder = some record) (same : last.key = record.key) :
      Fails config token holder l .newKey (.alreadyOwner holder)
  | nextKnown {c : Chain} (enforced : config.enforceKeySequence = true)
      (loaded : l.loadChain token = .ok c) (exhausted : c.next? = none) :
      Fails config token holder l .nextKnown (.chain .positionsExhausted)
  | inSequence {c : Chain} {record : KeyRecord} {expected : Position}
      (enforced : config.enforceKeySequence = true) (loaded : l.loadChain token = .ok c)
      (latest : l.latestKey? holder = some record) (next : c.next? = some expected)
      (other : record.id ≠ expected) :
      Fails config token holder l .inSequence (.keyOutOfSequence expected record.id)
  | unbound {c : Chain} {last : Element} {g : Generator}
      (loaded : l.loadChain token = .ok c) (ends : c.last? = some last)
      (committed : last.generator = some g) (foreign : g.text ≠ last.key.text) :
      Fails config token holder l .unbound (.chain (.alreadyBound last.id))
  | room {c : Chain} {last : Element} (loaded : l.loadChain token = .ok c)
      (ends : c.last? = some last) (greatest : last.id = .greatest) :
      Fails config token holder l .room (.chain .positionsExhausted)

/-- The first check that fails is this one. -/
def FailsFirst (config : Config) (token : Token) (holder : Holder) (l : Ledger) (check : Check)
    (e : RegistryError) : Prop :=
  check.Fails config token holder l e ∧
    ∀ earlier : Check, earlier.place < check.place →
      ∀ e', ¬earlier.Fails config token holder l e'

end Check

/-- What has to be the case for a transfer to be carried out on a chain with a key. -/
structure Transferable (config : Config) (token : Token) (holder : Holder) (l : Ledger)
    (c : Chain) (record : KeyRecord) : Prop where
  registered : l.record.isSome = true
  loaded : l.loadChain token = .ok c
  intact : config.validateOnLoad = true → c.brokenLink? = none
  latest : l.latestKey? holder = some record
  newKey : ∀ last, c.last? = some last → last.key ≠ record.key
  inSequence : config.enforceKeySequence = true → c.next? = some record.id
  unbound : ∀ last, c.last? = some last →
    ∀ g, last.generator = some g → g.text = last.key.text
  room : ∀ last, c.last? = some last → last.id < .greatest

variable {config : Config} {token : Token} {holder : Holder} {l : Ledger}

/-! ## What a passed check tells -/

theorem exists_registration_of_passed
    (passed : ∀ e, ¬Check.registered.Fails config token holder l e) :
    ∃ registration, l.record = some registration := by
  cases known : l.record with
  | none => exact absurd (.registered known) (passed _)
  | some registration => exact ⟨registration, rfl⟩

theorem exists_chain_of_passed (passed : ∀ e, ¬Check.readable.Fails config token holder l e) :
    ∃ c, l.loadChain token = .ok c := by
  cases loaded : l.loadChain token with
  | error e => exact absurd (.readable loaded) (passed _)
  | ok c => exact ⟨c, rfl⟩

theorem admits_of_passed (passed : ∀ e, ¬Check.intact.Fails config token holder l e) {c : Chain}
    (loaded : l.loadChain token = .ok c) : Admits config c := by
  intro check
  cases damaged : c.brokenLink? with
  | none => rfl
  | some link => exact absurd (.intact check loaded damaged) (passed _)

theorem exists_key_of_passed (passed : ∀ e, ¬Check.issued.Fails config token holder l e) :
    ∃ record, l.latestKey? holder = some record := by
  cases latest : l.latestKey? holder with
  | none => exact absurd (.issued latest) (passed _)
  | some record => exact ⟨record, rfl⟩

theorem differs_of_passed (passed : ∀ e, ¬Check.newKey.Fails config token holder l e) {c : Chain}
    {record : KeyRecord} (loaded : l.loadChain token = .ok c)
    (latest : l.latestKey? holder = some record) :
    c.last?.map Element.key ≠ some record.key := by
  intro same
  obtain ⟨last, ends, same⟩ := Option.map_eq_some_iff.mp same
  exact passed _ (.newKey loaded ends latest same)

theorem next?_of_passed (passed : ∀ e, ¬Check.nextKnown.Fails config token holder l e)
    (passed' : ∀ e, ¬Check.inSequence.Fails config token holder l e) {c : Chain}
    {record : KeyRecord} (loaded : l.loadChain token = .ok c)
    (latest : l.latestKey? holder = some record) (enforced : config.enforceKeySequence = true) :
    c.next? = some record.id := by
  cases next : c.next? with
  | none => exact absurd (.nextKnown enforced loaded next) (passed _)
  | some expected =>
    by_cases fitting : record.id = expected
    · rw [fitting]
    · exact absurd (.inSequence enforced loaded latest next fitting) (passed' _)

theorem isBound_of_passed (passed : ∀ e, ¬Check.unbound.Fails config token holder l e)
    {c : Chain} {last : Element} (loaded : l.loadChain token = .ok c)
    (ends : c.last? = some last) : last.isBound = false :=
  Element.isBound_eq_false_iff.mpr fun _ committed =>
    Decidable.byContradiction fun foreign => passed _ (.unbound loaded ends committed foreign)

theorem authorize_of_passed (passed : ∀ e, ¬Check.newKey.Fails config token holder l e)
    (passed' : ∀ e, ¬Check.nextKnown.Fails config token holder l e)
    (passed'' : ∀ e, ¬Check.inSequence.Fails config token holder l e) {c : Chain}
    {record : KeyRecord} (loaded : l.loadChain token = .ok c)
    (latest : l.latestKey? holder = some record) : authorize config c record = .ok () :=
  authorize_eq_ok_iff.mpr
    ⟨differs_of_passed passed loaded latest, next?_of_passed passed' passed'' loaded latest⟩

/-! ## What the checks decide -/

/-- **The first check that fails decides what is answered.** -/
theorem transfer_of_failsFirst {check : Check} {e : RegistryError}
    (first : check.FailsFirst config token holder l e) :
    (l.transfer config token holder).result = .error e := by
  obtain ⟨fails, passed⟩ := first
  cases fails with
  | registered unknown => rw [transfer_of_unknown unknown]
  | readable unreadable =>
    obtain ⟨_, known⟩ := exists_registration_of_passed (passed .registered (by decide))
    rw [transfer_of_unread known (readChain_of_unreadable known unreadable)]
  | intact check loaded damaged =>
    obtain ⟨_, known⟩ := exists_registration_of_passed (passed .registered (by decide))
    rw [transfer_of_unread known (readChain_of_damaged known loaded check damaged)]
  | issued none =>
    obtain ⟨_, known⟩ := exists_registration_of_passed (passed .registered (by decide))
    obtain ⟨c, loaded⟩ := exists_chain_of_passed (passed .readable (by decide))
    have admits := admits_of_passed (passed .intact (by decide)) loaded
    rw [transfer_of_noKey known loaded admits none]
  | @newKey c last record loaded ends latest same =>
    obtain ⟨_, known⟩ := exists_registration_of_passed (passed .registered (by decide))
    have admits := admits_of_passed (passed .intact (by decide)) loaded
    have unauthorized : authorize config c record = .error (.alreadyOwner holder) := by
      rw [authorize, if_pos (by rw [ends, Option.map_some, same]),
        (mem_of_latestKey? latest).2]
    rw [transfer_of_unauthorized known loaded admits latest unauthorized]
  | @nextKnown c enforced loaded exhausted =>
    obtain ⟨_, known⟩ := exists_registration_of_passed (passed .registered (by decide))
    have admits := admits_of_passed (passed .intact (by decide)) loaded
    obtain ⟨record, latest⟩ := exists_key_of_passed (passed .issued (by decide))
    have differs := differs_of_passed (passed .newKey (by decide)) loaded latest
    have unauthorized :
        authorize config c record = .error (.chain .positionsExhausted) := by
      simp [authorize, nextPosition, differs, enforced, exhausted]
    rw [transfer_of_unauthorized known loaded admits latest unauthorized]
  | @inSequence c record expected enforced loaded latest next other =>
    obtain ⟨_, known⟩ := exists_registration_of_passed (passed .registered (by decide))
    have admits := admits_of_passed (passed .intact (by decide)) loaded
    have differs := differs_of_passed (passed .newKey (by decide)) loaded latest
    have unauthorized :
        authorize config c record = .error (.keyOutOfSequence expected record.id) := by
      simp [authorize, nextPosition, differs, enforced, next, other]
    rw [transfer_of_unauthorized known loaded admits latest unauthorized]
  | @unbound c last g loaded ends committed foreign =>
    obtain ⟨_, known⟩ := exists_registration_of_passed (passed .registered (by decide))
    have admits := admits_of_passed (passed .intact (by decide)) loaded
    obtain ⟨record, latest⟩ := exists_key_of_passed (passed .issued (by decide))
    have authorized := authorize_of_passed (passed .newKey (by decide))
      (passed .nextKnown (by decide)) (passed .inSequence (by decide)) loaded latest
    have bound : last.isBound = true := by simp [Element.isBound, committed, foreign]
    have refused := Chain.handOver_eq_error_iff.mpr
      ⟨last, ends, .inl ⟨.inr (a := last.key = record.key) bound, rfl⟩⟩
    rw [transfer_of_refused known loaded admits latest authorized refused]
  | @room c last loaded ends greatest =>
    obtain ⟨_, known⟩ := exists_registration_of_passed (passed .registered (by decide))
    have admits := admits_of_passed (passed .intact (by decide)) loaded
    obtain ⟨record, latest⟩ := exists_key_of_passed (passed .issued (by decide))
    have authorized := authorize_of_passed (passed .newKey (by decide))
      (passed .nextKnown (by decide)) (passed .inSequence (by decide)) loaded latest
    have differs := (authorize_eq_ok_iff.mp authorized).1
    have free := isBound_of_passed (passed .unbound (by decide)) loaded ends
    have allowed : ¬(last.key = record.key ∨ last.isBound = true) := by
      rw [ends, Option.map_some, ne_eq, Option.some.injEq] at differs
      simp [differs, free]
    have refused := Chain.handOver_eq_error_iff.mpr
      ⟨last, ends, .inr ⟨allowed, Position.next?_eq_none_iff.mpr greatest, rfl⟩⟩
    rw [transfer_of_refused known loaded admits latest authorized refused]

/-- Some check fails first, if any fails. -/
theorem exists_failsFirst {check : Check} {e : RegistryError}
    (fails : check.Fails config token holder l e) :
    ∃ check e, Check.FailsFirst config token holder l check e := by
  induction place : check.place using Nat.strongRecOn generalizing check e with
  | ind n ih =>
    by_cases first : ∀ earlier : Check, earlier.place < check.place →
        ∀ e', ¬earlier.Fails config token holder l e'
    · exact ⟨check, e, fails, first⟩
    · push Not at first
      obtain ⟨earlier, before, e', fails'⟩ := first
      exact ih earlier.place (place ▸ before) fails' rfl

/-- Where no check fails, a transfer can be carried out. -/
theorem exists_transferable_of_passed
    (passed : ∀ (check : Check) e, ¬check.Fails config token holder l e) :
    ∃ c record, Transferable config token holder l c record := by
  obtain ⟨registration, known⟩ := exists_registration_of_passed (passed .registered)
  obtain ⟨c, loaded⟩ := exists_chain_of_passed (passed .readable)
  obtain ⟨record, latest⟩ := exists_key_of_passed (passed .issued)
  have differs := differs_of_passed (passed .newKey) loaded latest
  refine ⟨c, record, Option.isSome_of_eq_some known, loaded,
    admits_of_passed (passed .intact) loaded, latest, fun last ends same => ?_,
    next?_of_passed (passed .nextKnown) (passed .inSequence) loaded latest,
    fun last ends => ?_, fun last ends => ?_⟩
  · exact differs (by rw [ends, Option.map_some, same])
  · exact Element.isBound_eq_false_iff.mp (isBound_of_passed (passed .unbound) loaded ends)
  · exact Position.lt_greatest_iff.mpr fun greatest => passed .room _ (.room loaded ends greatest)

/-- **A transfer that can be carried out is carried out**: the chain accepts the key,
and the table takes over the elements of the chain after that. -/
theorem exists_transferred_of_transferable {c : Chain} {record : KeyRecord}
    (able : Transferable config token holder l c record) :
    ∃ c' change t', c.handOver record.key = .ok (c', change) ∧
      t'.newestFirst = c'.newestFirst ∧
      (l.transfer config token holder).result = .ok (change, { l with table := some t' }) := by
  obtain ⟨registration, known⟩ := Option.isSome_iff_exists.mp able.registered
  have authorized : authorize config c record = .ok () := by
    refine authorize_eq_ok_iff.mpr ⟨fun same => ?_, able.inSequence⟩
    obtain ⟨last, ends, same⟩ := Option.map_eq_some_iff.mp same
    exact able.newKey last ends same
  cases answer : c.handOver record.key with
  | error e =>
    obtain ⟨last, ends, reason⟩ := Chain.handOver_eq_error_iff.mp answer
    have free := Element.isBound_eq_false_iff.mpr (able.unbound last ends)
    have inner := Position.lt_greatest_iff.mp (able.room last ends)
    rw [Position.next?_eq_none_iff] at reason
    simp [able.newKey last ends, free, inner] at reason
  | ok outcome =>
    obtain ⟨c', change⟩ := outcome
    obtain ⟨t', rows, transferred⟩ :=
      transfer_of_accepted known able.loaded able.intact able.latest authorized answer
    exact ⟨c', change, t', rfl, rows, congrArg Logged.result transferred⟩

theorem transfer_eq_error_iff {e : RegistryError} :
    (l.transfer config token holder).result = .error e ↔
      ∃ check, Check.FailsFirst config token holder l check e := by
  constructor
  · intro refused
    by_cases failure : ∃ (check : Check) (e : _), check.Fails config token holder l e
    · obtain ⟨_, _, fails⟩ := failure
      obtain ⟨check, e', first⟩ := exists_failsFirst fails
      obtain rfl := Except.error.inj (refused.symm.trans (transfer_of_failsFirst first))
      exact ⟨check, first⟩
    · push Not at failure
      obtain ⟨c, record, able⟩ := exists_transferable_of_passed failure
      obtain ⟨_, _, _, _, _, transferred⟩ := exists_transferred_of_transferable able
      cases refused.symm.trans transferred
  · intro failure
    obtain ⟨check, first⟩ := failure
    exact transfer_of_failsFirst first

theorem exists_transferable_of_transferred {outcome : Change × Ledger}
    (transferred : (l.transfer config token holder).result = .ok outcome) :
    ∃ c record, Transferable config token holder l c record := by
  refine exists_transferable_of_passed fun check e fails => ?_
  obtain ⟨check', e', first⟩ := exists_failsFirst fails
  cases transferred.symm.trans (transfer_of_failsFirst first)

end Ledger

namespace Store

/-- The rows of a token load and all their links hold. -/
def IntactRows (s : Store) (token : Token) : Prop :=
  ∃ c, s.loadChain token = .ok c ∧ c.brokenLink? = none

end Store

namespace Registry

theorem exists_ok_of_map {ε α β : Type} {f : α → β} {x : Except ε α} {b : β}
    (mapped : x.map f = .ok b) : ∃ a, x = .ok a ∧ f a = b := by
  cases x with
  | error e => cases mapped
  | ok a => exact ⟨a, rfl, Except.ok.inj mapped⟩

/-- A request that is refused changes nothing. -/
theorem respond_of_error {r : Registry} {request : Request} {e : RegistryError}
    (failed : (r.respond request).1.result = .error e) : (r.respond request).2 = r :=
  allOrNothing_perform request r e failed

/-- A table with the elements of a chain after a transfer is intact if the chain was. -/
theorem intactRows_of_handOver {s : Store} {token : Token} {c c' : Chain} {key : Key}
    {change : Change} {t : RowTable} (loaded : s.loadChain token = .ok c)
    (accepted : c.handOver key = .ok (c', change)) (rows : t.newestFirst = c'.newestFirst)
    (intact : c.brokenLink? = none) :
    (s.set token { s.ledger token with table := some t }).IntactRows token := by
  obtain ⟨_, _, rfl, _⟩ := Ledger.loadChain_eq_ok_iff.mp loaded
  obtain ⟨_, _, same, _⟩ := Chain.handOver_eq_ok_iff.mp accepted
  have contiguous : Contiguous (t.newestFirst.map Element.id) := by
    rw [rows]
    exact c'.contiguous
  obtain ⟨reloaded, built, htoken, elements⟩ := Ledger.exists_loadChain_of_contiguous c.token
    (l := { s.ledger c.token with table := some t }) rfl contiguous
  refine ⟨reloaded, ?_, ?_⟩
  · rw [Store.loadChain, Store.ledger_set, if_pos rfl]
    exact built
  · rw [Chain.brokenLink?, htoken, elements, rows, ← same]
    exact Chain.intact_of_handOver accepted intact

/-- **The checks decide, and nothing else.**  Whatever a store holds and however strict
the registry is:

* a transfer is refused exactly with the answer of the first check that fails;
* it is carried out exactly if the token is registered, its rows load and are admitted,
  the holder has a key, that key differs from the last one and is for the next position
  if it has to be, and the last element leaves room for a successor;
* then the rows are those of the chain after the transfer, registrations, issued keys
  and all other rows are as before, and where chains are checked, all links of the token
  hold before and after it;
* a request of whatever kind that is refused changes nothing. -/
theorem respond_transfer_decided (r : Registry) (holder : Holder) (token : Token) :
    let l := r.store.ledger token
    let response := (r.respond (.transfer holder token)).1
    let r' := (r.respond (.transfer holder token)).2
    (∀ e, response.result = .error e ↔
      ∃ check, Ledger.Check.FailsFirst r.config token holder l check e) ∧
    ((∃ answer, response.result = .ok answer) ↔
      ∃ c record, Ledger.Transferable r.config token holder l c record) ∧
    (∀ answer, response.result = .ok answer →
      ∃ c record c' change, Ledger.Transferable r.config token holder l c record ∧
        c.handOver record.key = .ok (c', change) ∧ answer = .change change ∧
        r'.store.loadRows token = .ok c'.elements ∧
        r'.config = r.config ∧ r.store.SameButRows token r'.store ∧
        (r.config.validateOnLoad = true →
          r.store.IntactRows token ∧ r'.store.IntactRows token)) ∧
    ∀ request e, (r.respond request).1.result = .error e → (r.respond request).2 = r := by
  intro l response r'
  have answered : response.result =
      (l.transfer r.config token holder).result.map fun outcome => .change outcome.1 := by
    simp only [response, respond_transfer, l]
  have left : r' = r.settled token (l.transfer r.config token holder).result := by
    simp only [r', respond_transfer, l]
  refine ⟨fun e => ?_, ⟨fun accepted => ?_, fun able => ?_⟩, fun answer accepted => ?_,
    fun request e failed => respond_of_error failed⟩
  · rw [← Ledger.transfer_eq_error_iff, answered]
    cases (l.transfer r.config token holder).result <;> simp [Except.map]
  · obtain ⟨answer, accepted⟩ := accepted
    rw [answered] at accepted
    obtain ⟨outcome, transferred, _⟩ := exists_ok_of_map accepted
    exact Ledger.exists_transferable_of_transferred transferred
  · obtain ⟨c, record, able⟩ := able
    obtain ⟨c', change, t', _, _, transferred⟩ := Ledger.exists_transferred_of_transferable able
    rw [transferred] at answered
    exact ⟨.change change, answered⟩
  · rw [answered] at accepted
    obtain ⟨outcome, transferred, rfl⟩ := exists_ok_of_map accepted
    obtain ⟨c, record, able⟩ := Ledger.exists_transferable_of_transferred transferred
    obtain ⟨c', change, t', grown, rows, transferred'⟩ :=
      Ledger.exists_transferred_of_transferable able
    obtain rfl := Except.ok.inj (transferred.symm.trans transferred')
    rw [transferred'] at left
    refine ⟨c, record, c', change, able, grown, rfl, ?_, by rw [left]; rfl, ?_, fun check => ?_⟩
    · rw [left]
      show (r.store.set token { l with table := some t' }).loadRows token = _
      rw [Store.loadRows, Store.ledger_set, if_pos rfl]
      exact Ledger.loadRows_eq_ok_iff.mpr
        ⟨t', rfl, by rw [rows, Chain.elements, List.reverse_reverse]⟩
    · rw [left]
      exact r.store.sameButRows_set token t'
    · rw [left]
      exact ⟨⟨c, able.loaded, able.intact check⟩,
        intactRows_of_handOver able.loaded grown rows (able.intact check)⟩

end Registry

end Provenance
