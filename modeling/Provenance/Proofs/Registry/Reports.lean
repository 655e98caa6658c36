import Provenance.Proofs.Chain.RoundTrip
import Provenance.Proofs.Chain.Verdict
import Provenance.Proofs.Registry.Decision
import Provenance.Proofs.Registry.Isolation
import Provenance.Proofs.Registry.SameLookups
import Provenance.Proofs.Store.Acceptance
import Provenance.Proofs.Store.Loading
set_option autoImplicit false

/-!
# Reports: what is said about stored rows

Rows can be damaged in two ways.  If there is a gap between them they are no chain, and
nothing that needs the chain of the token gets any further.  If they are a chain, links
of it can be broken.  Reading the chain fails then, where the registry checks what it
reads; a validation succeeds, and its report tells of the broken link.

`validate_of_loadChain` says that reading and validating see the same in all stores.
`validate_of_run` says what a validation answers for whatever rows a registered token
has come to have: a report exactly if there is no gap, and else the first gap, as an
error of the store (`validate_of_run_gap`).
-/

namespace Provenance

namespace Ledger

variable {config : Config} {token : Token} {l : Ledger} {c : Chain} {link : BrokenLink}

/-! ## One token -/

/-- What one sees who reads the chain of a token with all checks, and who validates it. -/
inductive Sees (token : Token) (l : Ledger) :
    Except RegistryError Chain → Except RegistryError Report → Prop where
  | unknown (unknown : l.record = none) :
      Sees token l (.error (.tokenNotFound token)) (.error (.tokenNotFound token))
  | unreadable {e : StoreError} (unreadable : l.loadChain token = .error e) :
      Sees token l (.error (.store e)) (.error (.store e))
  | intact {c : Chain} (loaded : l.loadChain token = .ok c) (intact : c.brokenLink? = none) :
      Sees token l (.ok c)
        (.ok { valid := true
               lastId := c.last?.map Element.id
               holder := c.last?.bind fun last => l.holderOf? last.key
               error := none })
  | damaged {c : Chain} {link : BrokenLink} (loaded : l.loadChain token = .ok c)
      (damaged : c.brokenLink? = some link) :
      Sees token l (.error (.chainDamaged token link))
        (.ok { valid := false
               lastId := c.last?.map Element.id
               holder := none
               error := some link })

theorem sees_of_checking (check : config.validateOnLoad = true) (token : Token) (l : Ledger) :
    Sees token l (l.readChain config token).result (l.validate token).result := by
  cases known : l.record with
  | none =>
    rw [readChain_of_unknown known, validate_of_unknown known]
    exact .unknown known
  | some registration =>
    cases loaded : l.loadChain token with
    | error e =>
      rw [readChain_of_unreadable known loaded, validate_of_unreadable known loaded]
      exact .unreadable loaded
    | ok c =>
      cases damaged : c.brokenLink? with
      | none =>
        rw [readChain_of_loaded known loaded (admits_of_intact damaged),
          validate_of_loaded known loaded damaged]
        exact .intact loaded damaged
      | some link =>
        rw [readChain_of_damaged known loaded check damaged,
          validate_of_damaged known loaded damaged]
        exact .damaged loaded damaged

/-- A key is refused with the error that reading the chain ends with. -/
theorem result_issueKey_of_unread {error : RegistryError}
    (unread : (l.readChain config token).result = .error error) (holder : Holder)
    (passphrase : String) : (l.issueKey config token holder passphrase).result = .error error := by
  cases known : l.record with
  | none =>
    rw [readChain_of_unknown known] at unread
    obtain rfl := Except.error.inj unread
    rw [issueKey_of_unknown known]
  | some registration =>
    have read : l.readChain config token = ⟨_, .error error⟩ := congrArg (Logged.mk _) unread
    rw [issueKey_of_unread known read]

/-- The last row of rows that are read as a chain is its last element. -/
theorem exists_last_of_damaged (loaded : l.loadChain token = .ok c)
    (damaged : c.brokenLink? = some link) :
    ∃ rows last, l.loadRows token = .ok rows ∧ rows.getLast? = some last ∧
      c.last? = some last := by
  obtain ⟨t, table, _, elements, _⟩ := loadChain_eq_ok_iff.mp loaded
  cases ends : c.newestFirst with
  | nil =>
    -- A chain without elements has no link that could be broken.
    rw [Chain.brokenLink?, ends] at damaged
    cases damaged
  | cons last older =>
    refine ⟨t.rows, last, ?_, ?_, ?_⟩
    · exact loadRows_eq_ok_iff.mpr ⟨t, table, (List.reverse_reverse _).symm⟩
    · rw [RowTable.rows, List.getLast?_reverse, ← elements, ends, List.head?_cons]
    · rw [Chain.last?, ends, List.head?_cons]

end Ledger

namespace Registry

/-! ## Reading and validating -/

/-- **Reading and validating a chain see the same.**  Whatever a store holds, let one
registry over it check what it reads, and any other one validate:

* a chain is read exactly if it is reported as valid, and then the report names no link,
  the last element and whoever its key was issued to last;
* reading it fails because a link is broken exactly if the report names that link, the
  last row and nobody; then no key is issued either, for the same reason, and all is left
  as it was;
* with any other error the two fail together, and a validation fails with no error but
  these. -/
theorem validate_of_loadChain (s : Store) (enforce : Bool) (config : Config) (token : Token) :
    let strict : Registry := ⟨⟨true, enforce⟩, s⟩
    let read := (strict.loadChain token).result
    let checked := (validate ⟨config, s⟩ token).result
    ((∃ c, read = .ok c) ↔ ∃ report, checked = .ok report ∧ report.valid = true) ∧
    (∀ c, read = .ok c →
      checked = .ok { valid := true
                      lastId := c.elements.getLast?.map Element.id
                      holder := c.elements.getLast?.bind fun last => s.holderOf? token last.key
                      error := none }) ∧
    (∀ other link, read = .error (.chainDamaged other link) ↔
      other = token ∧ ∃ rows last, s.loadRows token = .ok rows ∧ rows.getLast? = some last ∧
        checked = .ok { valid := false, lastId := some last.id, holder := none
                        error := some link }) ∧
    (∀ link, read = .error (.chainDamaged token link) → ∀ holder passphrase,
      let request : Request := .issueKey holder token passphrase
      (strict.respond request).1.result = .error (.chainDamaged token link) ∧
        (strict.respond request).2 = strict) ∧
    ∀ e, checked = .error e ↔ read = .error e ∧ ∀ other link, e ≠ .chainDamaged other link := by
  intro strict read checked
  have refused : ∀ link, read = .error (.chainDamaged token link) → ∀ holder passphrase,
      let request : Request := .issueKey holder token passphrase
      (strict.respond request).1.result = .error (.chainDamaged token link) ∧
        (strict.respond request).2 = strict := by
    intro link unread holder passphrase request
    have unissued := Ledger.result_issueKey_of_unread unread holder passphrase
    rw [respond_issueKey, unissued]
    exact ⟨rfl, rfl⟩
  have last? : ∀ c : Chain, c.elements.getLast? = c.last? :=
    fun c => List.getLast?_reverse
  have check : strict.config.validateOnLoad = true := rfl
  have seen : (s.ledger token).Sees token read checked :=
    Ledger.sees_of_checking check token (s.ledger token)
  clear_value read checked
  cases seen with
  | unknown unknown =>
    refine ⟨by simp, by simp, by simp, refused, fun e => ?_⟩
    simp only [Except.error.injEq]
    exact ⟨fun same => ⟨same, by simp [← same]⟩, And.left⟩
  | unreadable unreadable =>
    refine ⟨by simp, by simp, by simp, refused, fun e => ?_⟩
    simp only [Except.error.injEq]
    exact ⟨fun same => ⟨same, by simp [← same]⟩, And.left⟩
  | intact loaded intact =>
    refine ⟨by simp, fun c read => ?_, by simp, refused, by simp⟩
    obtain rfl := Except.ok.inj read
    rw [last?]
    rfl
  | @damaged c link loaded damaged =>
    refine ⟨by simp, by simp, fun other link' => ⟨fun failed => ?_, ?_⟩, refused, fun e => ?_⟩
    · cases failed
      obtain ⟨rows, last, stored, ends, ends'⟩ := Ledger.exists_last_of_damaged loaded damaged
      exact ⟨rfl, rows, last, stored, ends, by rw [ends']; rfl⟩
    · rintro ⟨rfl, _, _, _, _, reported⟩
      obtain rfl := Option.some.inj (congrArg Report.error (Except.ok.inj reported))
      rfl
    · simp only [reduceCtorEq, Except.error.injEq, false_iff]
      rintro ⟨rfl, spared⟩
      exact spared token link rfl

end Registry

/-! ## Rows of any kind -/

/-- The rows of a table have ascending ids, so none comes after the greatest one. -/
theorem RowTable.exists_next_of_firstGap {t : RowTable} {earlier later : Element}
    (gap : FirstGap t.rows earlier later) :
    ∃ expected : Position, expected.toNat = earlier.id.toNat + 1 := by
  obtain ⟨before, after, split, _, _⟩ := gap
  have ascending : t.rows.Pairwise fun earlier later => earlier.id < later.id :=
    List.pairwise_reverse.mpr t.sorted
  rw [split] at ascending
  have below : earlier.id < later.id :=
    (List.pairwise_cons.mp (List.pairwise_append.mp ascending).2.1).1 later List.mem_cons_self
  rw [UInt64.lt_iff_toNat_lt] at below
  have bound : later.id.toNat < UInt64.size := later.id.toNat_lt
  exact ⟨.ofNat (earlier.id.toNat + 1), UInt64.toNat_ofNat_of_lt' (by omega)⟩

namespace Ledger

variable {token : Token} {l : Ledger} {rows : List Element}

theorem loadChain_of_rows? (token : Token) (stored : l.rows? = some rows) :
    l.loadChain token = (Chain.ofElements token rows).mapError .chain := by
  unfold loadChain
  rw [loadRows_eq_ok_iff_rows?.mpr stored]

/-- Rows with a gap are not loaded. -/
theorem exists_loadChain_of_firstGap (token : Token) (stored : l.rows? = some rows)
    {earlier later : Element} (gap : FirstGap rows earlier later) :
    ∃ expected : Position, expected.toNat = earlier.id.toNat + 1 ∧
      l.loadChain token = .error (.chain (.outOfOrder expected later.id)) := by
  obtain ⟨t, _, rfl⟩ := Option.map_eq_some_iff.mp stored
  obtain ⟨expected, next⟩ := RowTable.exists_next_of_firstGap gap
  refine ⟨expected, next, ?_⟩
  have refused : Chain.ofElements token t.rows = .error (.outOfOrder expected later.id) :=
    Chain.ofElements_eq_error_iff.mpr ⟨earlier, later, gap, .inr ⟨expected, next, rfl⟩⟩
  rw [loadChain_of_rows? token stored, refused]
  rfl

/-- Rows without a gap are loaded. -/
theorem exists_loadChain_of_isChain (token : Token) (stored : l.rows? = some rows)
    (chain : rows.IsChain Element.Precedes) :
    ∃ c, l.loadChain token = .ok c ∧ c.token = token ∧ c.elements = rows := by
  obtain ⟨c, built⟩ : ∃ c, Chain.ofElements token rows = .ok c :=
    Chain.exists_ofElements_iff.mpr chain
  obtain ⟨htoken, elements, _⟩ := Chain.rows_of_ofElements built
  refine ⟨c, ?_, htoken, elements⟩
  rw [loadChain_of_rows? token stored, built]
  rfl

/-- Rows with a gap are not reported on.  The first gap is answered. -/
theorem exists_error_of_firstGap (token : Token) {registration : TokenRecord}
    (registered : l.record = some registration) (stored : l.rows? = some rows)
    {earlier later : Element} (gap : FirstGap rows earlier later) :
    ∃ expected : Position, expected.toNat = earlier.id.toNat + 1 ∧
      (l.validate token).result = .error (.store (.chain (.outOfOrder expected later.id))) := by
  obtain ⟨expected, next, unreadable⟩ := exists_loadChain_of_firstGap token stored gap
  exact ⟨expected, next, by rw [validate_of_unreadable registered unreadable]⟩

/-- Rows without a gap are reported on, whatever is in them. -/
theorem exists_report_of_isChain (token : Token) {registration : TokenRecord}
    (registered : l.record = some registration) (stored : l.rows? = some rows)
    (chain : rows.IsChain Element.Precedes) :
    ∃ report, (l.validate token).result = .ok report ∧
      ∃ c : Chain, c.token = token ∧ c.elements = rows ∧
        report.lastId = rows.getLast?.map Element.id ∧
        (report.valid = true ↔ c.LinkedFrom 0) ∧ report.error = c.brokenLink? ∧
        report.holder =
          if report.valid then rows.getLast?.bind fun last => l.holderOf? last.key else none := by
  obtain ⟨c, loaded, htoken, elements⟩ := exists_loadChain_of_isChain token stored chain
  have last? : rows.getLast? = c.last? := by
    rw [← elements]
    exact List.getLast?_reverse
  cases damaged : c.brokenLink? with
  | none =>
    refine ⟨_, congrArg Logged.result (validate_of_loaded registered loaded damaged), c, htoken,
      elements, ?_⟩
    simp [last?, Chain.linkedFrom_zero_iff, damaged]
  | some link =>
    refine ⟨_, congrArg Logged.result (validate_of_damaged registered loaded damaged), c, htoken,
      elements, ?_⟩
    simp [last?, Chain.linkedFrom_zero_iff, damaged]

/-! ## Registered tokens have rows -/

/-- A token that is registered has a table for its rows. -/
def Seated (l : Ledger) : Prop := l.record.isSome = true → l.table.isSome = true

theorem seated_of_table {t : RowTable} (table : l.table = some t) : l.Seated :=
  fun _ => Option.isSome_of_eq_some table

/-- What keeps registration and rows keeps a token seated. -/
theorem Seated.congr {l' : Ledger} (seated : l.Seated) (record : l'.record = l.record)
    (table : l'.table = l.table) : l'.Seated := by
  rw [Seated, record, table]
  exact seated

/-- To issue a key changes neither the registration nor the rows. -/
theorem kept_of_issueKey {config : Config} {holder : Holder} {passphrase : String}
    {record : KeyRecord} {l' : Ledger}
    (issued : (l.issueKey config token holder passphrase).result = .ok (record, l')) :
    l'.record = l.record ∧ l'.table = l.table := by
  obtain ⟨_, _, issues⟩ := exists_events_of_issued issued
  rw [issues (.refl l)] at issued
  obtain ⟨_, rfl⟩ := Prod.mk.inj (Except.ok.inj issued)
  exact ⟨rfl, rfl⟩

/-- To transfer the token changes nothing but the rows. -/
theorem exists_table_of_transferred {config : Config} {holder : Holder} {change : Change}
    {l' : Ledger} (transferred : (l.transfer config token holder).result = .ok (change, l')) :
    ∃ t, l' = { l with table := some t } := by
  obtain ⟨c, record, able⟩ := exists_transferable_of_transferred transferred
  obtain ⟨_, _, t, _, _, transferred'⟩ := exists_transferred_of_transferable able
  obtain ⟨_, rfl⟩ := Prod.mk.inj (Except.ok.inj (transferred.symm.trans transferred'))
  exact ⟨t, rfl⟩

end Ledger

namespace Store

variable {s : Store}

theorem seated_respond (seated : ∀ token, (s.ledger token).Seated) (request : Request)
    (token : Token) : ((s.respond request).2.ledger token).Seated := by
  -- What a checked request does to a ledger is listed; the one other request makes a table.
  by_cases checked : request.isChecked = true
  · have effect := effect_respond checked s token
    generalize (s.respond request).2.ledger token = after,
      (s.respond request).1.result = result at effect ⊢
    cases effect with
    | none _ _ record table => exact (seated token).congr record table
    | registered => exact Ledger.seated_of_table rfl
    | applied => exact Ledger.seated_of_table rfl
  · cases request with
    | overwriteRow other row =>
      rw [respond_overwriteRow, ledger_set]
      split
      · exact Ledger.seated_of_table rfl
      · exact seated token
    | _ => exact absurd rfl checked

end Store

namespace Registry

variable {r : Registry}

/-- Every registered token has a table for its rows. -/
def Seated (r : Registry) : Prop := ∀ token, (r.store.ledger token).Seated

theorem Seated.settled {α : Type} (seated : r.Seated) {token : Token}
    {result : Except RegistryError (α × Ledger)}
    (kept : ∀ a l, result = .ok (a, l) → l.Seated) : (r.settled token result).Seated := by
  intro other
  cases result with
  | error e => exact seated other
  | ok outcome =>
    rw [Registry.settled, Store.ledger_set]
    split
    · exact kept outcome.1 outcome.2 rfl
    · exact seated other

/-- **No request takes the table of a registered token away.** -/
theorem seated_respond (seated : r.Seated) (request : Request) : (r.respond request).2.Seated := by
  cases request with
  | listTokens => exact seated
  | searchToken token =>
    rw [respond_searchToken]
    exact seated
  | loadChain token =>
    rw [respond_loadChain]
    exact seated
  | validate token =>
    rw [respond_validate]
    exact seated
  | createToken title data =>
    rw [respond_createToken]
    refine seated.settled fun record l created => ?_
    cases known : (r.store.ledger (.ofData data)).record with
    | none =>
      rw [Ledger.create_of_unknown known] at created
      obtain ⟨_, rfl⟩ := Prod.mk.inj (Except.ok.inj created)
      exact Ledger.seated_of_table rfl
    | some registration =>
      rw [Ledger.create_of_registered known] at created
      cases created
  | issueKey holder token passphrase =>
    rw [respond_issueKey]
    refine seated.settled fun record l issued => ?_
    obtain ⟨record, table⟩ := Ledger.kept_of_issueKey issued
    exact (seated token).congr record table
  | transfer holder token =>
    rw [respond_transfer]
    refine seated.settled fun change l transferred => ?_
    obtain ⟨t, rfl⟩ := Ledger.exists_table_of_transferred transferred
    exact Ledger.seated_of_table rfl
  | store request => exact Store.seated_respond seated request

theorem seated_run (config : Config) (requests : List Request) :
    ((fresh config).after requests).Seated := by
  induction requests using List.reverseRecOn with
  | nil =>
    intro token registered
    rw [after_nil, fresh, Store.ledger_empty] at registered
    cases registered
  | append_singleton requests request ih =>
    rw [after_concat]
    exact seated_respond ih request

/-! ## Validating after any requests -/

/-- **Rows without a gap are always reported on.**  Let any requests be made of a
registry and its store, with rows written past the registry among them, and let any
registry over that store validate a token that is registered:

* there is a report exactly if the rows of the token follow one another without a gap;
* a report is about the chain of these rows.  It is valid exactly if every element is
  linked to the one after it, and names the last id, the broken link that is the last
  one, and whom the last key was issued to if no link is broken;
* there is an error exactly if there is a gap.  It tells of the first one: the id that
  comes next there, and the one that is found instead. -/
theorem validate_of_run (config : Config) (requests : List Request) (other : Config)
    {token : Token}
    (registered : (((fresh config).after requests).store.getToken? token).isSome = true) :
    let s := ((fresh config).after requests).store
    let checked := (validate ⟨other, s⟩ token).result
    ∃ rows, s.loadRows token = .ok rows ∧
      ((∃ report, checked = .ok report) ↔ rows.IsChain Element.Precedes) ∧
      (∀ report, checked = .ok report →
        ∃ c : Chain, c.token = token ∧ c.elements = rows ∧
          report.lastId = rows.getLast?.map Element.id ∧
          (report.valid = true ↔ c.LinkedFrom 0) ∧ report.error = c.brokenLink? ∧
          report.holder =
            if report.valid then rows.getLast?.bind fun last => s.holderOf? token last.key
            else none) ∧
      ∀ e, checked = .error e ↔
        ∃ earlier later, FirstGap rows earlier later ∧
          ∃ expected : Position, expected.toNat = earlier.id.toNat + 1 ∧
            e = .store (.chain (.outOfOrder expected later.id)) := by
  intro s checked
  obtain ⟨registration, known⟩ := Option.isSome_iff_exists.mp registered
  obtain ⟨t, table⟩ := Option.isSome_iff_exists.mp (seated_run config requests token registered)
  have stored : (s.ledger token).rows? = some t.rows := congrArg (Option.map RowTable.rows) table
  refine ⟨t.rows, Ledger.loadRows_eq_ok_iff_rows?.mpr stored, ?_⟩
  have gapped : ∀ earlier later, FirstGap t.rows earlier later →
      ∃ expected : Position, expected.toNat = earlier.id.toNat + 1 ∧
        checked = .error (.store (.chain (.outOfOrder expected later.id))) :=
    fun earlier later gap => Ledger.exists_error_of_firstGap token known stored gap
  rcases Chain.isChain_or_exists_firstGap t.rows with chain | ⟨earlier, later, gap⟩
  · obtain ⟨report, reported, about⟩ :=
      Ledger.exists_report_of_isChain token known stored chain
    have answered : checked = .ok report := reported
    refine ⟨iff_of_true ⟨report, answered⟩ chain, fun report' again => ?_, fun e => ?_⟩
    · obtain rfl := Except.ok.inj (answered.symm.trans again)
      exact about
    · refine iff_of_false (by simp [answered]) ?_
      rintro ⟨earlier, later, gap, _⟩
      obtain ⟨_, _, failed⟩ := gapped earlier later gap
      cases answered.symm.trans failed
  · obtain ⟨expected, next, failed⟩ := gapped earlier later gap
    have unreported : ∀ report, checked ≠ .ok report := by simp [failed]
    refine ⟨iff_of_false (fun ⟨report, reported⟩ => unreported report reported) fun chain => ?_,
      fun report reported => absurd reported (unreported report), fun e => ⟨fun again => ?_, ?_⟩⟩
    · exact gap.not_isChain chain
    · obtain rfl := Except.error.inj (failed.symm.trans again)
      exact ⟨earlier, later, gap, expected, next, rfl⟩
    · rintro ⟨earlier', later', gap', expected', next', rfl⟩
      -- The next position is the same whichever way it is found.
      obtain ⟨expected'', next'', failed'⟩ := gapped earlier' later' gap'
      obtain rfl := UInt64.toNat_inj.mp (next'.trans next''.symm)
      exact failed'

/-- A deed with two rows that nothing links, written past the registry. -/
def unlinkedDeed (second : Position) : List Request :=
  [.createToken "deed" [1], .store (.overwriteRow (.ofData [1]) (.unlinked 0 ⟨"A"⟩)),
    .store (.overwriteRow (.ofData [1]) (.unlinked second ⟨"B"⟩))]

/-- The rows of such a deed. -/
def unlinkedTable (second : Position) : RowTable :=
  (RowTable.empty.overwrite (.unlinked 0 ⟨"A"⟩)).overwrite (.unlinked second ⟨"B"⟩)

theorem rows_unlinkedTable {second : Position} (after : 0 < second) :
    (unlinkedTable second).rows = [.unlinked 0 ⟨"A"⟩, .unlinked second ⟨"B"⟩] := by
  simp [unlinkedTable, RowTable.rows, RowTable.overwrite, RowTable.place, RowTable.empty,
    Element.unlinked, after]

theorem ledger_unlinkedDeed (second : Position) :
    ((fresh {}).after (unlinkedDeed second)).store.ledger (.ofData [1]) =
      { record := some ⟨.ofData [1], "deed", [1]⟩, table := some (unlinkedTable second) } := by
  have created : ((fresh {}).respond (.createToken "deed" [1])).2.store.ledger (.ofData [1]) =
      { record := some ⟨.ofData [1], "deed", [1]⟩, table := some .empty } := by
    rw [ledger_respond_createToken (by simp [fresh]), fresh, Store.ledger_empty]
  rw [unlinkedDeed, after_cons, after_cons, after_cons, after_nil]
  simp [respond_store, Store.respond_overwriteRow, created, Ledger.overwriteRow, unlinkedTable]

theorem isSome_getToken?_unlinkedDeed (second : Position) :
    (((fresh {}).after (unlinkedDeed second)).store.getToken? (.ofData [1])).isSome = true := by
  rw [Store.getToken?, ledger_unlinkedDeed]
  rfl

theorem rows?_unlinkedDeed {second : Position} (after : 0 < second) :
    (((fresh {}).after (unlinkedDeed second)).store.ledger (.ofData [1])).rows? =
      some [.unlinked 0 ⟨"A"⟩, .unlinked second ⟨"B"⟩] := by
  rw [ledger_unlinkedDeed, ← rows_unlinkedTable after]
  rfl

/-- The second row follows the first one, so the report tells that nothing links them. -/
theorem validate_of_run_unlinked :
    let s := ((fresh {}).after (unlinkedDeed 1)).store
    (s.getToken? (.ofData [1])).isSome = true ∧
      ∃ report, (validate ⟨{}, s⟩ (.ofData [1])).result = .ok report ∧
        report.valid = false ∧ report.lastId = some 1 ∧ report.holder = none := by
  intro s
  have registered := isSome_getToken?_unlinkedDeed 1
  obtain ⟨rows, loaded, reported, about, _⟩ := validate_of_run {} (unlinkedDeed 1) {} registered
  have stored := rows?_unlinkedDeed (show (0 : Position) < 1 by decide)
  obtain rfl := Option.some.inj (stored.symm.trans (Ledger.loadRows_eq_ok_iff_rows?.mp loaded))
  obtain ⟨report, answered⟩ := reported.mpr (by simp [Element.Precedes, Element.unlinked])
  obtain ⟨c, htoken, elements, lastId, valid, error, holder⟩ := about report answered
  have unlinked : ¬c.LinkedFrom 0 := by
    intro linked
    rw [Chain.LinkedFrom, elements] at linked
    cases (linked 0 _ _ (Nat.le_refl 0) rfl rfl).1
  have invalid : report.valid = false := by
    rw [← Bool.not_eq_true]
    exact fun holds => unlinked (valid.mp holds)
  rw [invalid] at holder
  exact ⟨registered, report, answered, invalid, lastId, holder⟩

/-- The second row leaves out a position, so there is no report. -/
theorem validate_of_run_gap :
    let s := ((fresh {}).after (unlinkedDeed 2)).store
    (s.getToken? (.ofData [1])).isSome = true ∧
      (validate ⟨{}, s⟩ (.ofData [1])).result = .error (.store (.chain (.outOfOrder 1 2))) ∧
      ∀ report, (validate ⟨{}, s⟩ (.ofData [1])).result ≠ .ok report := by
  intro s
  have registered := isSome_getToken?_unlinkedDeed 2
  have known : (s.ledger (.ofData [1])).record = some ⟨.ofData [1], "deed", [1]⟩ :=
    congrArg Ledger.record (ledger_unlinkedDeed 2)
  have stored := rows?_unlinkedDeed (show (0 : Position) < 2 by decide)
  change (s.getToken? _).isSome = true at registered
  change (s.ledger _).rows? = _ at stored
  -- How the rows came about does not matter any more.
  clear_value s
  have gap : FirstGap [.unlinked 0 ⟨"A"⟩, .unlinked 2 ⟨"B"⟩] (.unlinked 0 ⟨"A"⟩)
      (.unlinked 2 ⟨"B"⟩) :=
    ⟨[], [], rfl, .singleton _, by decide⟩
  obtain ⟨expected, next, failed⟩ :=
    Ledger.exists_error_of_firstGap (.ofData [1]) known stored gap
  obtain rfl : expected = 1 := UInt64.toNat_inj.mp next
  exact ⟨registered, failed, fun report => by simp [validate, failed]⟩

end Registry

end Provenance
