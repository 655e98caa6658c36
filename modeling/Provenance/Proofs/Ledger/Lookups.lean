import Provenance.Ledger.Basic
set_option autoImplicit false

/-!
# Lookups: what the issued keys of a token are asked for

A ledger keeps the keys that were issued one after another, whatever position they are for
and whoever they were issued to.  Two questions are answered from this list: which key a
holder would use (`KeyRecord.IsLatest`), and whom a key was issued to
(`KeyRecord.IsLastHolder`).  Both depend on the order of the list, and differently: for the
one the greatest position counts, and the last issue only among those for this position;
for the other nothing counts but the last issue.
-/

namespace Provenance

namespace KeyRecord

/-- Of keys issued in this order, the one that a holder would use: none of the holder's
other keys is for a greater position, and none that was issued later is for the same. -/
def IsLatest (holder : Holder) (records : List KeyRecord) (record : KeyRecord) : Prop :=
  ∃ before after, records = before ++ record :: after ∧ record.holder = holder ∧
    (∀ other ∈ before, other.holder = holder → other.id ≤ record.id) ∧
    ∀ other ∈ after, other.holder = holder → other.id < record.id

/-- The holder whom a key was issued to the last time, of keys issued in this order. -/
def IsLastHolder (key : Key) (records : List KeyRecord) (holder : Holder) : Prop :=
  ∃ before record after, records = before ++ record :: after ∧ record.key = key ∧
    record.holder = holder ∧ ∀ other ∈ after, other.key ≠ key

end KeyRecord

namespace Ledger

variable {l : Ledger} {records : List KeyRecord} {record : KeyRecord} {holder : Holder}
  {key : Key}

/-- There is a latest record unless there is none at all. -/
theorem latest?_eq_none_iff : latest? records = none ↔ records = [] := by
  cases records with
  | nil => exact iff_of_true rfl rfl
  | cons first earlier =>
    refine iff_of_false (fun none => ?_) (List.cons_ne_nil _ _)
    rw [latest?] at none
    split at none
    · cases none
    · split at none <;> cases none

/-- The latest record is one of the records. -/
theorem mem_of_latest? (latest : latest? records = some record) : record ∈ records := by
  induction records with
  | nil => cases latest
  | cons first earlier ih =>
    unfold latest? at latest
    cases known : latest? earlier with
    | none =>
      rw [known] at latest
      obtain rfl := Option.some.inj latest
      exact List.mem_cons_self
    | some best =>
      rw [known] at latest
      simp only at latest
      split at latest
      · obtain rfl := Option.some.inj latest
        exact List.mem_cons_self
      · exact List.mem_cons_of_mem _ (ih (known.trans latest))

/-- No record is for a greater position than the latest one. -/
theorem le_of_latest? (latest : latest? records = some record) :
    ∀ other ∈ records, other.id ≤ record.id := by
  induction records generalizing record with
  | nil => cases latest
  | cons first earlier ih =>
    rw [latest?] at latest
    intro other member
    cases known : latest? earlier with
    | none =>
      rw [known] at latest
      obtain rfl := Option.some.inj latest
      rw [latest?_eq_none_iff.mp known, List.mem_singleton] at member
      exact member ▸ UInt64.le_refl _
    | some best =>
      rw [known] at latest
      have bounded := ih known
      simp only at latest
      split at latest
      case isTrue greater =>
        obtain rfl := Option.some.inj latest
        rcases List.mem_cons.mp member with rfl | member
        · exact UInt64.le_refl _
        · exact UInt64.le_trans (bounded other member) greater
      case isFalse smaller =>
        obtain rfl := Option.some.inj latest
        rcases List.mem_cons.mp member with rfl | member
        · exact UInt64.le_of_lt (UInt64.not_le.mp smaller)
        · exact bounded other member

/-- One record more, issued after all the others, is the latest one if none of them is
for a greater position; otherwise nothing changes. -/
theorem latest?_cons_eq_some_iff {first : KeyRecord} :
    latest? (first :: records) = some record ↔
      (record = first ∧ ∀ other ∈ records, other.id ≤ first.id) ∨
        (latest? records = some record ∧ first.id < record.id) := by
  rw [latest?]
  cases known : latest? records with
  | none =>
    rw [latest?_eq_none_iff.mp known]
    simp [eq_comm]
  | some best =>
    have bounded := le_of_latest? known
    have member := mem_of_latest? known
    by_cases greater : best.id ≤ first.id
    · have all : ∀ other ∈ records, other.id ≤ first.id := fun other there =>
        UInt64.le_trans (bounded other there) greater
      simp only [if_pos greater, Option.some.injEq]
      refine ⟨fun same => .inl ⟨same.symm, all⟩, ?_⟩
      rintro (⟨same, _⟩ | ⟨rfl, smaller⟩)
      · exact same.symm
      · exact absurd greater (UInt64.not_le.mpr smaller)
    · simp only [if_neg greater, Option.some.injEq]
      refine ⟨fun same => .inr ⟨same, same ▸ UInt64.not_le.mp greater⟩, ?_⟩
      rintro (⟨_, all⟩ | ⟨same, _⟩)
      · exact absurd (all best member) greater
      · exact same

/-- The latest record stands after smaller ones, and before none that is greater; the
records are given with the last one first. -/
theorem latest?_eq_some_iff :
    latest? records = some record ↔ ∃ later earlier, records = later ++ record :: earlier ∧
      (∀ other ∈ later, other.id < record.id) ∧ ∀ other ∈ earlier, other.id ≤ record.id := by
  induction records with
  | nil =>
    refine iff_of_false (fun found => by cases found) ?_
    rintro ⟨later, earlier, whole, _⟩
    exact absurd whole.symm (by simp)
  | cons first rest ih =>
    rw [latest?_cons_eq_some_iff, ih]
    constructor
    · rintro (⟨rfl, all⟩ | ⟨⟨later, earlier, rfl, above, below⟩, smaller⟩)
      · exact ⟨[], rest, rfl, by simp, all⟩
      · exact ⟨first :: later, earlier, rfl, List.forall_mem_cons.mpr ⟨smaller, above⟩, below⟩
    · rintro ⟨later, earlier, whole, above, below⟩
      cases later with
      | nil =>
        obtain ⟨rfl, rfl⟩ := List.cons.inj whole
        exact .inl ⟨rfl, below⟩
      | cons newest later =>
        obtain ⟨rfl, rfl⟩ := List.cons.inj whole
        obtain ⟨smaller, above⟩ := List.forall_mem_cons.mp above
        exact .inr ⟨⟨later, earlier, rfl, above, below⟩, smaller⟩

/-- The latest key of a holder is one that was issued to that holder. -/
theorem mem_of_latestKey? (latest : l.latestKey? holder = some record) :
    record ∈ l.issued ∧ record.holder = holder := by
  have member := mem_of_latest? latest
  rw [List.mem_filter, decide_eq_true_eq] at member
  exact member

theorem latestKey?_eq_none_iff :
    l.latestKey? holder = none ↔ ∀ record ∈ l.issued, record.holder ≠ holder := by
  rw [latestKey?, latest?_eq_none_iff, List.filter_eq_nil_iff]
  simp only [decide_eq_true_eq, ne_eq]

/-- **The key that a holder would use**, among all keys in the order of their issue. -/
theorem latestKey?_eq_some_iff :
    l.latestKey? holder = some record ↔ record.IsLatest holder l.issued.reverse := by
  rw [latestKey?, latest?_eq_some_iff]
  constructor
  · rintro ⟨later, earlier, kept, above, below⟩
    obtain ⟨first, second, whole, rfl, rest⟩ := List.filter_eq_append_iff.mp kept
    obtain ⟨skipped, older, rfl, none, own, rfl⟩ := List.filter_eq_cons_iff.mp rest
    refine ⟨older.reverse, skipped.reverse ++ first.reverse, ?_, of_decide_eq_true own, ?_, ?_⟩
    · rw [whole]
      simp
    · intro other member same
      refine below other (List.mem_filter.mpr ⟨List.mem_reverse.mp member, ?_⟩)
      exact decide_eq_true same
    · intro other member same
      rcases List.mem_append.mp member with member | member
      · exact absurd (decide_eq_true same) (none other (List.mem_reverse.mp member))
      · refine above other (List.mem_filter.mpr ⟨List.mem_reverse.mp member, ?_⟩)
        exact decide_eq_true same
  · rintro ⟨before, after, whole, own, below, above⟩
    have order : l.issued = after.reverse ++ record :: before.reverse := by
      rw [← List.reverse_reverse l.issued, whole]
      simp
    refine ⟨after.reverse.filter fun other => other.holder = holder,
      before.reverse.filter fun other => other.holder = holder, ?_, ?_, ?_⟩
    · have kept : decide (record.holder = holder) = true := decide_eq_true own
      rw [order, List.filter_append, List.filter_cons, if_pos kept]
    · intro other member
      obtain ⟨member, same⟩ := List.mem_filter.mp member
      exact above other (List.mem_reverse.mp member) (of_decide_eq_true same)
    · intro other member
      obtain ⟨member, same⟩ := List.mem_filter.mp member
      exact below other (List.mem_reverse.mp member) (of_decide_eq_true same)

theorem holderOf?_eq_none_iff :
    l.holderOf? key = none ↔ ∀ record ∈ l.issued, record.key ≠ key := by
  rw [holderOf?, Option.map_eq_none_iff, List.find?_eq_none]
  simp only [decide_eq_true_eq, ne_eq]

/-- **Whom a key was issued to**, among all keys in the order of their issue. -/
theorem holderOf?_eq_some_iff :
    l.holderOf? key = some holder ↔ KeyRecord.IsLastHolder key l.issued.reverse holder := by
  rw [holderOf?, Option.map_eq_some_iff]
  constructor
  · rintro ⟨record, found, same⟩
    obtain ⟨own, later, earlier, whole, none⟩ := List.find?_eq_some_iff_append.mp found
    refine ⟨earlier.reverse, record, later.reverse, ?_, of_decide_eq_true own, same, ?_⟩
    · rw [whole]
      simp
    · intro other member
      simpa using none other (List.mem_reverse.mp member)
  · rintro ⟨before, record, after, whole, own, same, none⟩
    refine ⟨record, List.find?_eq_some_iff_append.mpr ⟨decide_eq_true own, after.reverse,
      before.reverse, ?_, fun other member => ?_⟩, same⟩
    · rw [← List.reverse_reverse l.issued, whole]
      simp
    · simpa using none other (List.mem_reverse.mp member)

end Ledger

end Provenance
