import Provenance.Sample.Fixture
import Provenance.Proofs.Chain.Offers
import Provenance.Proofs.Chain.RoundTrip
import Provenance.Proofs.Ledger.Progress
set_option autoImplicit false

/-!
# Persisted chains: a store in step with a chain

A fixture writes a chain into its store row by row, past all checks.  The ids of a chain
ascend, so each row comes after the ones before, and nothing else is left of the table:
registering the token has taken away whatever rows it had (`Store.stored_of_overwritten`).

From there on the store keeps in step with the chain, however the chain came about.  A
transfer that is made on the rows is answered as one that is made on the chain
(`Store.follows_commit`), and afterwards the rows are again those of the chain.
`Fixture.persist_of_unregistered` puts this together.
-/

namespace Provenance

/-! ## Rows in ascending order -/

/-- Ids that follow one another ascend. -/
theorem Contiguous.pairwise {ids : List Position} (contiguous : Contiguous ids) :
    ids.Pairwise fun later earlier => earlier < later := by
  have descending : ids.IsChain fun later earlier => earlier < later :=
    (contiguous_iff_isChain.mp contiguous).imp fun _ _ => Position.lt_of_next?
  have trans : IsTrans Position fun later earlier => earlier < later :=
    ⟨fun _ _ _ above below => UInt64.lt_trans below above⟩
  exact List.isChain_iff_pairwise.mp descending

/-- A row above all others comes before them. -/
theorem RowTable.place_of_above {row : Element} {rows : List Element}
    (above : ∀ e ∈ rows, e.id < row.id) : place row rows = row :: rows := by
  cases rows with
  | nil => rfl
  | cons first older => exact if_pos (above first List.mem_cons_self)

namespace Store

variable {s s' : Store} {token : Token} {c : Chain}

/-- What is done to the rows and to the registration of one token alone. -/
structure Spares (token : Token) (s s' : Store) : Prop where
  others : ∀ other, other ≠ token → s'.ledger other = s.ledger other
  issued : ∀ other, (s'.ledger other).issued = (s.ledger other).issued

theorem Spares.refl (s : Store) : s.Spares token s :=
  ⟨fun _ _ => rfl, fun _ => rfl⟩

theorem Spares.trans {s'' : Store} (first : s.Spares token s') (second : s'.Spares token s'') :
    s.Spares token s'' where
  others other differs := (second.others other differs).trans (first.others other differs)
  issued other := (second.issued other).trans (first.issued other)

theorem spares_set (s : Store) {l : Ledger} (issued : l.issued = (s.ledger token).issued) :
    s.Spares token (s.set token l) where
  others other differs := by rw [ledger_set, if_neg (Ne.symm differs)]
  issued other := by
    rw [ledger_set]
    split
    case isTrue same => rw [issued, same]
    case isFalse => rfl

/-- The store with a token registered.  It starts without rows, whatever rows it had. -/
def registering (s : Store) (record : TokenRecord) : Store :=
  s.set record.token { s.ledger record.token with record := some record, table := some .empty }

theorem ledger_registering (s : Store) (record : TokenRecord) :
    (s.registering record).ledger record.token =
      { s.ledger record.token with record := some record, table := some .empty } := by
  rw [registering, ledger_set, if_pos rfl]

theorem insertToken_of_unregistered (record : TokenRecord)
    (unregistered : s.getToken? record.token = none) :
    s.insertToken record =
      ⟨[.tokenStored record.token record.title], .ok (.inserted, s.registering record)⟩ := by
  have unknown : (s.ledger record.token).record = none := unregistered
  rw [insertToken_eq, Ledger.register_eq, unknown]
  rfl

/-- Rows that are put in place in ascending order, above all others, come before them. -/
theorem exists_table_of_overwritten {rows : List Element} {t : RowTable}
    (table : (s.ledger token).table = some t)
    (sorted : (rows.reverse ++ t.newestFirst).Pairwise fun later earlier =>
      earlier.id < later.id) :
    let s' := rows.foldl (·.overwriteRow token ·) s
    s.Spares token s' ∧ ∃ t', t'.newestFirst = rows.reverse ++ t.newestFirst ∧
      s'.ledger token = { s.ledger token with table := some t' } := by
  induction rows generalizing s t with
  | nil => exact ⟨.refl s, t, rfl, by rw [← table]; rfl⟩
  | cons row rows ih =>
    rw [List.reverse_cons, List.append_assoc, List.singleton_append] at sorted ⊢
    have above : ∀ e ∈ t.newestFirst, e.id < row.id :=
      (List.pairwise_cons.mp (List.pairwise_append.mp sorted).2.1).1
    have placed : (t.overwrite row).newestFirst = row :: t.newestFirst :=
      RowTable.place_of_above above
    have written : (s.overwriteRow token row).ledger token =
        { s.ledger token with table := some (t.overwrite row) } := by
      rw [overwriteRow, ledger_set, if_pos rfl, Ledger.overwriteRow, table]
      rfl
    have spares : s.Spares token (s.overwriteRow token row) := spares_set s rfl
    obtain ⟨spares', t', rows', later⟩ :=
      ih (congrArg Ledger.table written) (by rwa [placed])
    rw [placed] at rows'
    rw [written] at later
    exact ⟨spares.trans spares', t', rows', later⟩

/-! ## Rows of a chain -/

/-- Rows are those of a chain if the table has its elements. -/
theorem loadRows_eq_elements_iff :
    s.loadRows token = .ok c.elements ↔
      ∃ t, (s.ledger token).table = some t ∧ t.newestFirst = c.newestFirst := by
  rw [loadRows, Ledger.loadRows_eq_ok_iff, Chain.elements, List.reverse_reverse]

/-- **The rows of a chain are written in their order**, to a table without rows. -/
theorem stored_of_overwritten (c : Chain) (empty : (s.ledger c.token).table = some .empty) :
    let s' := c.elements.foldl (·.overwriteRow c.token ·) s
    s.Spares c.token s' ∧ s'.loadRows c.token = .ok c.elements ∧
      s'.getToken? c.token = s.getToken? c.token := by
  have sorted : (c.elements.reverse ++ RowTable.empty.newestFirst).Pairwise
      fun later earlier => earlier.id < later.id := by
    rw [Chain.elements, List.reverse_reverse, RowTable.empty, List.append_nil]
    exact List.pairwise_map.mp c.contiguous.pairwise
  obtain ⟨spares, t, rows, written⟩ := exists_table_of_overwritten empty sorted
  rw [Chain.elements, List.reverse_reverse, RowTable.empty, List.append_nil] at rows
  refine ⟨spares, loadRows_eq_elements_iff.mpr ⟨t, congrArg Ledger.table written, rows⟩, ?_⟩
  rw [getToken?, written, getToken?]

/-- The rows of a chain are loaded as one that cannot be told from it. -/
theorem exists_alike_of_stored (stored : s.loadRows c.token = .ok c.elements) :
    ∃ d, s.loadChain c.token = .ok d ∧ c.Alike d := by
  obtain ⟨t, table, rows⟩ := loadRows_eq_elements_iff.mp stored
  obtain ⟨d, loaded, htoken, elements⟩ :=
    Ledger.exists_loadChain_of_contiguous c.token table (rows ▸ c.contiguous)
  exact ⟨d, loaded, htoken, elements.trans rows⟩

/-! ## Transfers on the rows and on the chain -/

/-- The answer to a transfer that is made on the rows follows the one that is made on the
chain: it is refused for the same reason, or it is the same change and leaves the rows of
the chain after it, and nothing else is touched. -/
inductive Follows (token : Token) (s : Store) :
    Except ChainError (Chain × Change) → Except CommitError (Change × Store) → Prop where
  | refused (e : ChainError) : Follows token s (.error e) (.error (.refused e))
  | accepted {c' : Chain} {change : Change} {s' : Store}
      (stored : s'.loadRows token = .ok c'.elements) (spares : s.Spares token s') :
      Follows token s (.ok (c', change)) (.ok (change, s'))

theorem Follows.eq_of_refused {e : ChainError} {result : Except CommitError (Change × Store)}
    (follows : Follows token s (.error e) result) : result = .error (.refused e) := by
  cases follows
  rfl

theorem Follows.exists_of_accepted {c' : Chain} {change : Change}
    {result : Except CommitError (Change × Store)}
    (follows : Follows token s (.ok (c', change)) result) :
    ∃ s', result = .ok (change, s') ∧ s'.loadRows token = .ok c'.elements ∧
      s.Spares token s' := by
  cases follows with
  | accepted stored spares => exact ⟨_, rfl, stored, spares⟩

/-- **The rows of a chain are handed over as the chain is.** -/
theorem follows_commit (stored : s.loadRows c.token = .ok c.elements) (key : Key) :
    Follows c.token s (c.handOver key) (s.commit c.token key).result := by
  obtain ⟨d, loaded, alike⟩ := exists_alike_of_stored stored
  rw [commit_eq, loaded]
  simp only [Logged.ofExcept_mapError_ok, Logged.ok_bind]
  rcases alike.handOver key with
    ⟨e, refused, refused'⟩ | ⟨c', d', change, accepted, accepted', _, same⟩
  · rw [refused, refused']
    exact .refused e
  · obtain ⟨t', applied, rows⟩ := Ledger.applyChange_eq_of_handOver loaded accepted'
    rw [accepted, accepted']
    simp only [Logged.ofExcept_mapError_ok, Logged.ok_bind, applyChange_of_ok applied]
    refine .accepted (loadRows_eq_elements_iff.mpr ⟨t', ?_, rows.trans same⟩) (spares_set s rfl)
    rw [ledger_set, if_pos rfl]

/-- The store after transfers to one key after another, each accepted or refused. -/
def commitAll (s : Store) (token : Token) (keys : List Key) : Store :=
  keys.foldl (fun s key => ((InPlace.commit token key).run s).2) s

/-- **Every transfer leaves the rows of the chain that it would leave.** -/
theorem stored_commit (stored : s.loadRows c.token = .ok c.elements) (key : Key) :
    let s' := ((InPlace.commit c.token key).run s).2
    (c.offer key).token = c.token ∧ s'.loadRows c.token = .ok (c.offer key).elements ∧
      s.Spares c.token s' := by
  intro s'
  have follows := follows_commit stored key
  cases answer : c.handOver key with
  | error e =>
    rw [answer] at follows
    have left : s' = s := ((allOrNothing_commit c.token key).run_of_error follows.eq_of_refused).2
    rw [left, Chain.offer_of_error answer]
    exact ⟨rfl, stored, .refl s⟩
  | ok outcome =>
    obtain ⟨c', change⟩ := outcome
    rw [answer] at follows
    obtain ⟨s'', result, stored', spares⟩ := follows.exists_of_accepted
    have left : s' = s'' := (Procedure.run_of_ok result).2
    obtain ⟨_, _, same, _⟩ := Chain.handOver_eq_ok_iff.mp answer
    rw [left, Chain.offer_of_ok answer]
    exact ⟨same, stored', spares⟩

theorem stored_commitAll (stored : s.loadRows c.token = .ok c.elements) (keys : List Key) :
    let s' := s.commitAll c.token keys
    (c.offerAll keys).token = c.token ∧ s'.loadRows c.token = .ok (c.offerAll keys).elements ∧
      s.Spares c.token s' := by
  induction keys generalizing s c with
  | nil => exact ⟨rfl, stored, .refl s⟩
  | cons key keys ih =>
    obtain ⟨same, stored', spares⟩ := stored_commit stored key
    rw [← same] at stored'
    obtain ⟨same', later, spares'⟩ := ih stored'
    rw [same] at same' later spares'
    exact ⟨same', later, spares.trans spares'⟩

end Store

namespace Fixture

/-! ## Persisting -/

/-- What a fixture registers a chain as. -/
def record (f : Fixture) (c : Chain) : TokenRecord := ⟨c.token, "fixture", f.data⟩

/-- A chain of a token that is not registered is written, whatever rows the token had. -/
theorem exists_stored_of_persisted (f : Fixture) (c : Chain)
    (unregistered : f.store.getToken? c.token = none) :
    ∃ s, (f.persist c).result = .ok (f.record c, { f with store := s }) ∧
      s.getToken? c.token = some (f.record c) ∧ s.loadRows c.token = .ok c.elements ∧
      f.store.Spares c.token s := by
  have started := f.store.ledger_registering (f.record c)
  obtain ⟨spares, stored, registered⟩ :=
    Store.stored_of_overwritten c (congrArg Ledger.table started)
  have spared : f.store.Spares c.token (f.store.registering (f.record c)) :=
    Store.spares_set f.store rfl
  refine ⟨_, ?_, registered.trans (congrArg Ledger.record started), stored, spared.trans spares⟩
  rw [persist, ← record, Store.insertToken_of_unregistered (f.record c) unregistered]
  rfl

/-- **A chain that was persisted is read back and goes on as it would.**  Take any chain,
with ids from wherever to wherever, and any fixture in whose store its token is not
registered, whatever rows were written for it:

* the chain is persisted, under the title of fixtures and with their data;
* the rows are then the elements of the chain, and they are read as a chain of the same
  token with these elements, of which the same link is broken, if there is one;
* after transfers to any keys in any order, on the rows and on the chain, the rows are the
  elements of the chain still, and a transfer to any key is refused on the rows exactly if
  it is on the chain, for the same reason, or it is the same change and leaves the rows of
  the chain after it;
* in all this the ledgers of other tokens stay as they are, and so do all issued keys. -/
theorem persist_of_unregistered (f : Fixture) (c : Chain)
    (unregistered : f.store.getToken? c.token = none) :
    ∃ f', (f.persist c).result = .ok (f.record c, f') ∧ f'.data = f.data ∧
      f'.store.getToken? c.token = some (f.record c) ∧
      f'.store.loadRows c.token = .ok c.elements ∧
      (∃ d, f'.store.loadChain c.token = .ok d ∧ d.token = c.token ∧ d.elements = c.elements ∧
        d.brokenLink? = c.brokenLink?) ∧
      f.store.Spares c.token f'.store ∧
      ∀ keys,
        let s := f'.store.commitAll c.token keys
        s.loadRows c.token = .ok (c.offerAll keys).elements ∧ f.store.Spares c.token s ∧
          ∀ key, Store.Follows c.token s ((c.offerAll keys).handOver key)
            (s.commit c.token key).result := by
  obtain ⟨s, persisted, registered, stored, spares⟩ := f.exists_stored_of_persisted c unregistered
  refine ⟨_, persisted, rfl, registered, stored, ?_, spares, fun keys => ?_⟩
  · obtain ⟨d, loaded, alike⟩ := Store.exists_alike_of_stored stored
    exact ⟨d, loaded, alike.token, alike.elements, alike.brokenLink?⟩
  · obtain ⟨same, stored', spares'⟩ := Store.stored_commitAll stored keys
    refine ⟨stored', spares.trans spares', fun key => ?_⟩
    rw [← same] at stored' ⊢
    exact Store.follows_commit stored' key

/-- A fixture whose store has a row for a token that is not registered. -/
def littered : Fixture where
  data := [1]
  store := ({} : Store).overwriteRow ⟨"T"⟩ (.unlinked 7 ⟨"Z"⟩)

/-- A chain of that token that ends with the greatest position. -/
def lastChain : Chain where
  token := ⟨"T"⟩
  newestFirst := [.unlinked .greatest ⟨"B"⟩, .unlinked 0xFFFFFFFFFFFFFFFE ⟨"A"⟩]
  expectedLength := 0
  contiguous := ⟨by decide, trivial⟩

/-- The row is gone, and the end of all positions is told on the rows of the chain. -/
theorem persist_of_unregistered_littered :
    littered.store.getToken? lastChain.token = none ∧
      ∃ f', (littered.persist lastChain).result = .ok (littered.record lastChain, f') ∧
        f'.store.loadRows ⟨"T"⟩ =
          .ok [.unlinked 0xFFFFFFFFFFFFFFFE ⟨"A"⟩, .unlinked .greatest ⟨"B"⟩] ∧
        (f'.store.commit ⟨"T"⟩ ⟨"C"⟩).result = .error (.refused .positionsExhausted) := by
  have unregistered : littered.store.getToken? lastChain.token = none := by
    simp [littered, lastChain, Store.getToken?, Store.overwriteRow, Ledger.overwriteRow]
  obtain ⟨f', persisted, _, _, stored, _, _, goesOn⟩ :=
    persist_of_unregistered littered lastChain unregistered
  have exhausted : lastChain.handOver ⟨"C"⟩ = .error .positionsExhausted := by
    decide
  have follows := (goesOn []).2.2 ⟨"C"⟩
  rw [Chain.offerAll, List.foldl_nil, exhausted] at follows
  exact ⟨unregistered, f', persisted, stored, follows.eq_of_refused⟩

end Fixture

end Provenance
