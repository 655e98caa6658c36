import Provenance.Proofs.Ledger.Delta
import Provenance.Proofs.Store.InPlace
set_option autoImplicit false

/-!
# Persistence: storing a transfer

A transfer is made on a chain that was loaded, and stored as the change that it
reports.  `applyChange_of_handOver` says that nothing is lost on the way: the
change of an accepted transfer is never refused by the store that the chain came
from, and afterwards the store has the rows of the chain after the transfer.
-/

namespace Provenance

/-- What a store logs about a change that it has carried out. -/
def Change.event (token : Token) (change : Change) : Event :=
  .changeApplied token change.id change.generatorId (change.owner.map fun _ => change.ownerId)

namespace Ledger

/-! ## One token -/

/-- A chain is loaded if there is a table and its rows form a chain. -/
theorem loadChain_eq_ok_iff {token : Token} {l : Ledger} {c : Chain} :
    l.loadChain token = .ok c ↔
      ∃ t, l.table = some t ∧ c.token = token ∧ c.newestFirst = t.newestFirst ∧
        c.expectedLength = .ofNat t.newestFirst.length := by
  unfold loadChain loadRows getTable
  cases l.table with
  | none => simp [Except.map]
  | some t =>
    simp only [Except.map, Option.some.injEq, exists_eq_left']
    rw [mapError_eq_ok_iff, Chain.ofElements_eq_ok_iff, RowTable.rows, List.reverse_reverse,
      List.length_reverse]

/-- Contiguous rows are loaded. -/
theorem exists_loadChain_of_contiguous (token : Token) {l : Ledger} {t : RowTable}
    (table : l.table = some t) (contiguous : Contiguous (t.newestFirst.map Element.id)) :
    ∃ c, l.loadChain token = .ok c ∧ c.token = token ∧ c.newestFirst = t.newestFirst :=
  ⟨⟨token, t.newestFirst, .ofNat t.newestFirst.length, contiguous⟩,
    loadChain_eq_ok_iff.mpr ⟨t, table, rfl, rfl, rfl⟩, rfl, rfl⟩

/-- A change that the table accepts is logged and leaves all but the table. -/
theorem applyChange_of_ok {token : Token} {l : Ledger} {t t' : RowTable} {change : Change}
    {key : Key} (table : l.table = some t) (applied : t.apply change key = .ok t') :
    l.applyChange token change key =
      ⟨[change.event token], .ok { l with table := some t' }⟩ := by
  rw [applyChange_eq, getTable, table]
  simp only [Logged.ofExcept_ok, Logged.ok_bind, applied, Logged.ofExcept_mapError_ok]
  rfl

/-- A change that the table refuses is not logged. -/
theorem applyChange_of_error {token : Token} {l : Ledger} {t : RowTable} {change : Change}
    {key : Key} {refused : RowTable.Refusal} (table : l.table = some t)
    (applied : t.apply change key = .error refused) :
    l.applyChange token change key = ⟨[], .error (refusal token refused)⟩ := by
  rw [applyChange_eq, getTable, table]
  simp only [Logged.ofExcept_ok, Logged.ok_bind, applied, Logged.ofExcept_mapError_error]
  rfl

/-- The change of a transfer made on the loaded chain is stored, and the table has
the elements of the chain after the transfer. -/
theorem applyChange_eq_of_handOver {token : Token} {l : Ledger} {c c' : Chain} {key : Key}
    {change : Change} (loaded : l.loadChain token = .ok c)
    (accepted : c.handOver key = .ok (c', change)) :
    ∃ t', l.applyChange token change key =
        ⟨[change.event token], .ok { l with table := some t' }⟩ ∧
      t'.newestFirst = c'.newestFirst := by
  obtain ⟨t, table, rfl, elements, _⟩ := loadChain_eq_ok_iff.mp loaded
  obtain ⟨id, takes, _, elements', _, rfl⟩ := Chain.handOver_eq_ok_iff.mp accepted
  have next : t.next? = some id := by
    rw [RowTable.next?_eq_after?, ← elements]
    exact Chain.after?_of_takes takes
  obtain ⟨t', applied, grown⟩ := RowTable.apply_extending c.token key next
  rw [elements] at elements' ⊢
  exact ⟨t', applyChange_of_ok table applied, grown.trans elements'.symm⟩

end Ledger

namespace Store

@[simp] theorem ledger_empty (token : Token) : ({} : Store).ledger token = {} := by
  simp [ledger]

/-! ## Which tokens are registered -/

/-- The listed tokens are those with a registration. -/
theorem mem_tokens_iff {s : Store} {token : Token} :
    token ∈ s.tokens ↔ (s.ledger token).record.isSome = true := by
  unfold tokens ledger
  rw [List.mem_filterMap]
  constructor
  · intro found
    obtain ⟨⟨t, l⟩, member, listed⟩ := found
    rw [Std.ExtTreeMap.mem_toList_iff_getElem?_eq_some] at member
    split at listed
    · rename_i registered
      obtain rfl := Option.some.inj listed
      rw [member]
      exact registered
    · cases listed
  · intro registered
    cases found : s.ledgers[token]? with
    | none =>
      rw [found] at registered
      cases registered
    | some l =>
      rw [found] at registered
      exact ⟨(token, l), Std.ExtTreeMap.mem_toList_iff_getElem?_eq_some.mpr found,
        if_pos registered⟩

/-- The tokens are listed in their order, each once. -/
theorem pairwise_tokens (s : Store) :
    s.tokens.Pairwise fun earlier later => compare earlier later = .lt := by
  unfold tokens
  refine List.Pairwise.filterMap _ ?_ Std.ExtTreeMap.ordered_keys_toList
  intro a b before c hc d hd
  split at hc
  · split at hd
    · obtain rfl := Option.some.inj hc
      obtain rfl := Option.some.inj hd
      exact before
    · cases hd
  · cases hc

theorem nodup_tokens (s : Store) : s.tokens.Nodup := by
  refine (pairwise_tokens s).imp fun {a b} before equal => ?_
  subst equal
  exact absurd (before.symm.trans Std.ReflCmp.compare_self) (by simp)

/-- The list of tokens depends on nothing but which tokens are registered. -/
theorem tokens_congr {s s' : Store}
    (same : ∀ token, (s'.ledger token).record.isSome = (s.ledger token).record.isSome) :
    s'.tokens = s.tokens := by
  have members : ∀ token, token ∈ s'.tokens ↔ token ∈ s.tokens := by
    intro token
    rw [mem_tokens_iff, mem_tokens_iff, same]
  refine List.Perm.eq_of_pairwise ?_ (pairwise_tokens s') (pairwise_tokens s)
    ((List.perm_ext_iff_of_nodup (nodup_tokens s') (nodup_tokens s)).mpr members)
  intro a b _ _ before after
  exact absurd (Std.OrientedCmp.gt_of_lt before) (by rw [after]; simp)

/-! ## The rows of one token -/

/-- A store that differs from another in the rows of one token at most. -/
structure SameButRows (token : Token) (s s' : Store) : Prop where
  tokens : s'.tokens = s.tokens
  records : ∀ other, s'.getToken? other = s.getToken? other
  issued : ∀ other, (s'.ledger other).issued = (s.ledger other).issued
  rows : ∀ other, other ≠ token → s'.loadRows other = s.loadRows other

theorem sameButRows_set (s : Store) (token : Token) (t : RowTable) :
    s.SameButRows token (s.set token { s.ledger token with table := some t }) := by
  have records : ∀ other,
      ((s.set token { s.ledger token with table := some t }).ledger other).record =
        (s.ledger other).record := by
    intro other
    by_cases same : token = other <;> simp [same]
  refine ⟨tokens_congr fun other => congrArg Option.isSome (records other), records, ?_, ?_⟩
  · intro other
    by_cases same : token = other <;> simp [same]
  · intro other differs
    rw [loadRows, ledger_set, if_neg (Ne.symm differs), loadRows]

/-! ## Storing a transfer -/

theorem applyChange_of_ok {s : Store} {token : Token} {change : Change} {key : Key}
    {events : List Event} {l : Ledger}
    (applied : (s.ledger token).applyChange token change key = ⟨events, .ok l⟩) :
    s.applyChange token change key = ⟨events, .ok (s.set token l)⟩ := by
  rw [applyChange_eq, applied]
  exact congrArg (Logged.mk · _) (List.append_nil events)

theorem applyChange_of_error {s : Store} {token : Token} {change : Change} {key : Key}
    {events : List Event} {e : StoreError}
    (refused : (s.ledger token).applyChange token change key = ⟨events, .error e⟩) :
    s.applyChange token change key = ⟨events, .error e⟩ := by
  rw [applyChange_eq, refused]
  rfl

/-- **Storing a transfer.**  Whatever a store holds, the change of a transfer that
the chain loaded from it accepts is accepted by the store too.  The rows are then
those of the chain after the transfer, and load as that chain; registrations,
issued keys and the rows of all other tokens are as before. -/
theorem applyChange_of_handOver {s : Store} {token : Token} {c c' : Chain} {key : Key}
    {change : Change} (loaded : s.loadChain token = .ok c)
    (accepted : c.handOver key = .ok (c', change)) :
    ∃ s', (s.applyChange token change key).result = .ok s' ∧
      s'.loadRows token = .ok c'.elements ∧
      (∃ reloaded, s'.loadChain token = .ok reloaded ∧ reloaded.token = c'.token ∧
        reloaded.elements = c'.elements) ∧
      s'.tokens = s.tokens ∧
      (∀ other, s'.getToken? other = s.getToken? other ∧
        (s'.ledger other).issued = (s.ledger other).issued) ∧
      ∀ other, other ≠ token → s'.loadRows other = s.loadRows other := by
  obtain ⟨t', applied, rows⟩ := Ledger.applyChange_eq_of_handOver loaded accepted
  let l' : Ledger := { s.ledger token with table := some t' }
  have written : (s.set token l').ledger token = l' := by simp
  have others : ∀ other, other ≠ token → (s.set token l').ledger other = s.ledger other := by
    intro other differs
    simp [Ne.symm differs]
  have records : ∀ other, ((s.set token l').ledger other).record = (s.ledger other).record ∧
      ((s.set token l').ledger other).issued = (s.ledger other).issued := by
    intro other
    by_cases same : other = token
    · rw [same, written]
      exact ⟨rfl, rfl⟩
    · rw [others other same]
      exact ⟨rfl, rfl⟩
  refine ⟨s.set token l', ?_, ?_, ?_, ?_, ?_, ?_⟩
  · rw [applyChange_of_ok applied]
  · unfold loadRows
    rw [written, Ledger.loadRows, Ledger.getTable, Except.map, RowTable.rows, rows]
    rfl
  · obtain ⟨_, _, loadedToken, _, _⟩ := Ledger.loadChain_eq_ok_iff.mp loaded
    obtain ⟨_, _, sameToken, _⟩ := Chain.handOver_eq_ok_iff.mp accepted
    obtain ⟨reloaded, built, htoken, elements⟩ :=
      Ledger.exists_loadChain_of_contiguous token (l := l') rfl (rows ▸ c'.contiguous)
    refine ⟨reloaded, ?_, ?_, ?_⟩
    · unfold loadChain
      rw [written]
      exact built
    · rw [htoken, sameToken, loadedToken]
    · rw [Chain.elements, Chain.elements, elements, rows]
  · exact tokens_congr fun other => congrArg Option.isSome (records other).1
  · exact records
  · intro other differs
    unfold loadRows
    rw [others other differs]

/-- A store in which two rows were forced upon a token, so far on that one more
position is left.  The last of them repeats its own key. -/
def nearlyExhausted : Store :=
  (({} : Store).overwriteRow ⟨"T"⟩ (.unlinked 0xFFFFFFFFFFFFFFFD ⟨"A"⟩)).overwriteRow ⟨"T"⟩
    { id := 0xFFFFFFFFFFFFFFFE, key := ⟨"B"⟩, generator := some ⟨"B"⟩, owner := none }

/-- The last position can be handed over and stored as any other. -/
theorem applyChange_of_handOver_nearlyExhausted :
    ∃ c c' change s', nearlyExhausted.loadChain ⟨"T"⟩ = .ok c ∧
      c.handOver ⟨"C"⟩ = .ok (c', change) ∧ change.id = .greatest ∧
      (nearlyExhausted.applyChange ⟨"T"⟩ change ⟨"C"⟩).result = .ok s' ∧
      s'.loadRows ⟨"T"⟩ = .ok c'.elements := by
  have known : nearlyExhausted.ledger ⟨"T"⟩ = ((({} : Ledger).overwriteRow
      (.unlinked 0xFFFFFFFFFFFFFFFD ⟨"A"⟩)).overwriteRow
      { id := 0xFFFFFFFFFFFFFFFE, key := ⟨"B"⟩, generator := some ⟨"B"⟩, owner := none }) := by
    simp [nearlyExhausted, overwriteRow]
  obtain ⟨c, loaded, _, elements⟩ := Ledger.exists_loadChain_of_contiguous ⟨"T"⟩
    (congrArg Ledger.table known) ⟨by decide, trivial⟩
  have takes : Chain.Takes Position.greatest ⟨"C"⟩ c.newestFirst := by
    rw [elements]
    decide
  obtain ⟨c', _, accepted⟩ := Chain.exists_handOver_of_takes takes
  obtain ⟨s', applied, rows, _⟩ := applyChange_of_handOver loaded accepted
  exact ⟨c, c', _, s', loaded, accepted, by simp, applied, rows⟩

end Store

end Provenance
