import Provenance.Proofs.Registry.Operations
set_option autoImplicit false

/-!
# Same lookups: logs of issued keys that nothing tells apart

Keys can be issued in different orders and nobody may ever notice.  Two ledgers are told
apart by nothing if they have the same registration and the same rows, every holder would
use the same key, and every key is said to be held by the same one (`SameLookups`).  No
operation asks for more, and each of them, given such ledgers, logs the same, gives the
same answer, and leaves such ledgers again.

Two keys that were issued one after the other to different holders can change places
unless they are one key (`sameLookups_swapped`).
-/

namespace Provenance

/-! ## Computations side by side -/

namespace Logged

variable {ε δ α α' β β' σ : Type}

/-- Computations that log the same and end with the same error or with results that are
related. -/
inductive Related (R : α → α' → Prop) : Logged ε α → Logged ε α' → Prop where
  | ok (events : List Event) {a : α} {a' : α'} (related : R a a') :
      Related R ⟨events, .ok a⟩ ⟨events, .ok a'⟩
  | error (events : List Event) (e : ε) : Related R ⟨events, .error e⟩ ⟨events, .error e⟩

/-- Operations on a state that also give the same answer, and leave states that are
related. -/
def Parallel (R : σ → σ → Prop) (x y : Logged ε (α × σ)) : Prop :=
  Related (fun outcome outcome' => outcome.1 = outcome'.1 ∧ R outcome.2 outcome'.2) x y

namespace Related

variable {R : α → α' → Prop} {S : β → β' → Prop} {a : α} {a' : α'}

protected theorem pure (related : R a a') :
    Related R (pure a : Logged ε α) (pure a' : Logged ε α') :=
  .ok [] related

/-- Computations that are related go on as computations that are related. -/
protected theorem bind {x : Logged ε α} {x' : Logged ε α'} {f : α → Logged ε β}
    {f' : α' → Logged ε β'} (related : Related R x x')
    (rest : ∀ a a', R a a' → Related S (f a) (f' a')) : Related S (x >>= f) (x' >>= f') := by
  cases related with
  | error events e => exact .error events e
  | @ok events a a' related =>
    rw [ok_bind, ok_bind]
    have next := rest a a' related
    revert next
    generalize f a = y, f' a' = y'
    intro next
    cases next with
    | error later e => exact .error _ e
    | ok later related => exact .ok _ related

/-- What starts with the same computation need only go on alike. -/
theorem bind_same (x : Logged ε α) {f : α → Logged ε β} {f' : α → Logged ε β'}
    (rest : ∀ a, Related S (f a) (f' a)) : Related S (x >>= f) (x >>= f') := by
  obtain ⟨events, result⟩ := x
  cases result with
  | error e => exact .error events e
  | ok a =>
    exact Related.bind (R := fun a a' => a = a') (.ok events rfl) fun a a' same => same ▸ rest a

theorem map {x : Logged ε α} {x' : Logged ε α'} {f : α → β} {f' : α' → β'}
    (related : Related R x x') (keeps : ∀ a a', R a a' → S (f a) (f' a')) :
    Related S (f <$> x) (f' <$> x') := by
  rw [map_eq, map_eq]
  cases related with
  | error events e => exact .error events e
  | ok events related => exact .ok events (keeps _ _ related)

theorem mapError {x : Logged ε α} {x' : Logged ε α'} (related : Related R x x') (f : ε → δ) :
    Related R (x.mapError f) (x'.mapError f) := by
  cases related with
  | error events e => exact .error events (f e)
  | ok events related => exact .ok events related

end Related

variable {R : σ → σ → Prop} {s s' : σ}

/-- What is computed from both states alike runs side by side. -/
theorem Parallel.read {f : σ → Logged ε α} (told : f s = f s') (related : R s s') :
    Parallel R ((Procedure.read f).outcome s) ((Procedure.read f).outcome s') := by
  rw [Procedure.outcome_read, Procedure.outcome_read, told]
  exact .bind_same _ fun _ => .pure ⟨rfl, related⟩

/-- Procedures that run side by side may show their answers in another form. -/
theorem Parallel.answer {x : Procedure σ ε α} (parallel : Parallel R (x.outcome s) (x.outcome s'))
    (form : α → β) : Parallel R ((form <$> x).outcome s) ((form <$> x).outcome s') := by
  rw [Procedure.outcome_map, Procedure.outcome_map]
  refine parallel.map ?_
  rintro ⟨a, after⟩ ⟨_, after'⟩ ⟨rfl, related⟩
  exact ⟨rfl, related⟩

/-- Procedures that run side by side tell their callers the same.  If they check before
they write, the states after them are related if those before were. -/
theorem Parallel.run {x : Procedure σ ε α} (parallel : Parallel R (x.outcome s) (x.outcome s'))
    (whole : x.AllOrNothing) (before : R s s') :
    (x.run s).1 = (x.run s').1 ∧ R (x.run s).2 (x.run s').2 := by
  have left := whole s
  have left' := whole s'
  unfold Procedure.outcome at parallel
  generalize x.run s = ran, x.run s' = ran' at parallel left left' ⊢
  obtain ⟨⟨events, result⟩, after⟩ := ran
  obtain ⟨⟨events', result'⟩, after'⟩ := ran'
  cases result with
  | error e =>
    cases result' with
    | error e' =>
      cases parallel
      rw [left e rfl, left' e rfl]
      exact ⟨rfl, before⟩
    | ok a' => cases parallel
  | ok a =>
    cases result' with
    | error e' => cases parallel
    | ok a' =>
      cases parallel with
      | ok events related =>
        obtain ⟨rfl, related⟩ := related
        exact ⟨rfl, related⟩

end Logged

open Logged (Related Parallel)

namespace Ledger

variable {config : Config} {token : Token} {holder : Holder} {l l' : Ledger}

/-! ## Ledgers that differ in their keys -/

/-- Ledgers that are the same but for the issued keys. -/
structure SameButKeys (l l' : Ledger) : Prop where
  record : l.record = l'.record
  table : l.table = l'.table

namespace SameButKeys

theorem refl (l : Ledger) : l.SameButKeys l :=
  ⟨rfl, rfl⟩

theorem symm (same : l.SameButKeys l') : l'.SameButKeys l :=
  ⟨same.record.symm, same.table.symm⟩

theorem getTable (same : l.SameButKeys l') (token : Token) :
    l.getTable token = l'.getTable token := by
  rw [Ledger.getTable, Ledger.getTable, same.table]

theorem loadRows (same : l.SameButKeys l') (token : Token) :
    l.loadRows token = l'.loadRows token := by
  rw [Ledger.loadRows, Ledger.loadRows, same.getTable]

theorem countRows (same : l.SameButKeys l') (token : Token) :
    l.countRows token = l'.countRows token := by
  rw [Ledger.countRows, Ledger.countRows, same.getTable]

theorem loadChain (same : l.SameButKeys l') (token : Token) :
    l.loadChain token = l'.loadChain token := by
  rw [Ledger.loadChain, Ledger.loadChain, same.loadRows]

theorem search (same : l.SameButKeys l') (token : Token) : l.search token = l'.search token := by
  rw [Ledger.search, Ledger.search, same.record]

theorem readChain (same : l.SameButKeys l') (config : Config) (token : Token) :
    l.readChain config token = l'.readChain config token := by
  rw [Ledger.readChain, Ledger.readChain, same.search, same.loadChain]

end SameButKeys

/-- **A key that is issued is added to the others**, and would be the same if the others
were not. -/
theorem exists_events_of_issued {passphrase : String} {record : KeyRecord} {after : Ledger}
    (issued : (l.issueKey config token holder passphrase).result = .ok (record, after)) :
    record.holder = holder ∧ ∃ events, ∀ {l' : Ledger}, l.SameButKeys l' →
      l'.issueKey config token holder passphrase =
        ⟨events, .ok (record, { l' with issued := record :: l'.issued })⟩ := by
  cases known : l.record with
  | none =>
    rw [issueKey_of_unknown known] at issued
    cases issued
  | some registration =>
    cases read : l.readChain config token with | mk events result =>
    cases result with
    | error e =>
      rw [issueKey_of_unread known read] at issued
      cases issued
    | ok c =>
      cases next : c.next? with
      | none =>
        rw [issueKey_of_read_exhausted known read next] at issued
        cases issued
      | some id =>
        rw [issueKey_of_read known read next] at issued
        obtain ⟨rfl, _⟩ := Prod.mk.inj (Except.ok.inj issued)
        exact ⟨rfl, _, fun same => issueKey_of_read (same.record.symm.trans known)
          ((same.readChain config token).symm.trans read) next passphrase⟩

/-! ## Ledgers with the same lookups -/

/-- Ledgers that are the same but for keys which were issued in such orders that no
question about them is answered in another way. -/
structure SameLookups (l l' : Ledger) : Prop extends SameButKeys l l' where
  latestKey? : ∀ holder, l.latestKey? holder = l'.latestKey? holder
  holderOf? : ∀ key, l.holderOf? key = l'.holderOf? key

namespace SameLookups

theorem refl (l : Ledger) : l.SameLookups l :=
  ⟨.refl l, fun _ => rfl, fun _ => rfl⟩

/-- A key that is issued in both is found, or those are found that were found before. -/
theorem issue (same : l.SameLookups l') (record : KeyRecord) :
    { l with issued := record :: l.issued }.SameLookups
      { l' with issued := record :: l'.issued } where
  record := same.record
  table := same.table
  latestKey? holder := by
    have earlier := same.latestKey? holder
    simp only [Ledger.latestKey?, List.filter_cons] at earlier ⊢
    split
    · rw [latest?, latest?, earlier]
    · exact earlier
  holderOf? key := by
    have earlier := same.holderOf? key
    simp only [Ledger.holderOf?, List.find?_cons] at earlier ⊢
    split
    · rfl
    · exact earlier

theorem withTable (same : l.SameLookups l') (table : Option RowTable) :
    { l with table }.SameLookups { l' with table } :=
  ⟨⟨same.record, rfl⟩, same.latestKey?, same.holderOf?⟩

theorem overwriteRow (same : l.SameLookups l') (row : Element) :
    (l.overwriteRow row).SameLookups (l'.overwriteRow row) := by
  rw [Ledger.overwriteRow, Ledger.overwriteRow, same.table]
  exact same.withTable _

/-! ## Operations of a store -/

theorem register (same : l.SameLookups l') (record : TokenRecord) :
    Parallel SameLookups (l.register record) (l'.register record) := by
  rw [Ledger.register_eq, Ledger.register_eq, same.record]
  split
  · exact .pure ⟨rfl, same⟩
  · exact .bind_same _ fun _ => .pure ⟨rfl, ⟨rfl, rfl⟩, same.latestKey?, same.holderOf?⟩

theorem insertKey (same : l.SameLookups l') (record : KeyRecord) :
    Related SameLookups (.ofExcept (l.insertKey record)) (.ofExcept (l'.insertKey record)) := by
  rw [Ledger.insertKey_eq, Ledger.insertKey_eq]
  by_cases registered : l.record.isSome = true
  · rw [if_pos registered, if_pos (same.record ▸ registered)]
    exact .ok [] (same.issue record)
  · rw [if_neg registered, if_neg (same.record ▸ registered)]
    exact .error [] _

theorem applyChange (same : l.SameLookups l') (token : Token) (change : Change) (key : Key) :
    Related SameLookups (l.applyChange token change key) (l'.applyChange token change key) := by
  rw [Ledger.applyChange_eq, Ledger.applyChange_eq, same.getTable]
  exact .bind_same _ fun _ => .bind_same _ fun table => .bind_same _ fun _ =>
    .pure (same.withTable (some table))

/-! ## Operations of a registry -/

theorem validate (same : l.SameLookups l') (token : Token) :
    l.validate token = l'.validate token := by
  simp only [Ledger.validate, same.search, same.loadChain, same.holderOf?]

theorem create (same : l.SameLookups l') (record : TokenRecord) :
    Parallel SameLookups (l.create record) (l'.create record) := by
  rw [Ledger.create_eq, Ledger.create_eq]
  refine .bind ((same.register record).mapError RegistryError.store) ?_
  rintro ⟨outcome, after⟩ ⟨_, after'⟩ ⟨rfl, same'⟩
  cases outcome with
  | inserted => exact .bind_same _ fun _ => .pure ⟨rfl, same'⟩
  | alreadyExists => exact .error [] _

theorem issueKey (same : l.SameLookups l') (config : Config) (token : Token) (holder : Holder)
    (passphrase : String) :
    Parallel SameLookups (l.issueKey config token holder passphrase)
      (l'.issueKey config token holder passphrase) := by
  rw [Ledger.issueKey_eq, Ledger.issueKey_eq, same.search, same.readChain]
  refine .bind_same _ fun _ => .bind_same _ fun chain => .bind_same _ fun id => ?_
  refine .bind ((same.insertKey _).mapError RegistryError.store) fun after after' same' => ?_
  exact .bind_same _ fun _ => .pure ⟨rfl, same'⟩

theorem transfer (same : l.SameLookups l') (config : Config) (token : Token)
    (holder : Holder) :
    Parallel SameLookups (l.transfer config token holder) (l'.transfer config token holder) := by
  rw [Ledger.transfer_eq, Ledger.transfer_eq, same.search, same.readChain, same.latestKey?]
  refine .bind_same _ fun _ => .bind_same _ fun chain => ?_
  split
  · exact .error [] _
  · refine .bind_same _ fun _ => .bind_same _ ?_
    rintro ⟨_, change⟩
    refine .bind ((same.applyChange token change _).mapError RegistryError.store) ?_
    exact fun after after' same' => .bind_same _ fun _ => .pure ⟨rfl, same'⟩

end SameLookups

/-! ## Keys that change places -/

/-- Two keys of different holders can change places, unless they are one key. -/
theorem sameLookups_swapped (l : Ledger) {record record' : KeyRecord}
    {records : List KeyRecord} (apart : record.holder ≠ record'.holder)
    (differs : record.key ≠ record'.key) :
    { l with issued := record' :: record :: records }.SameLookups
      { l with issued := record :: record' :: records } where
  record := rfl
  table := rfl
  latestKey? holder := by
    simp only [latestKey?, List.filter_cons, decide_eq_true_eq]
    by_cases second : record'.holder = holder
    · have first : record.holder ≠ holder := fun first => apart (first.trans second.symm)
      rw [if_pos second, if_neg first, if_neg first, if_pos second]
    · rw [if_neg second, if_neg second]
  holderOf? key := by
    simp only [holderOf?, List.find?_cons]
    by_cases second : record'.key = key
    · have first : record.key ≠ key := fun first => differs (first.trans second.symm)
      rw [decide_eq_true second, decide_eq_false first]
    · rw [decide_eq_false second]

end Ledger

end Provenance
