import Provenance.Proofs.Chain.History
import Provenance.Proofs.Store.Persistence
set_option autoImplicit false

/-!
# Progress: ledgers whose rows are a history

A ledger whose rows are the history of some keys loads as an intact chain
(`exists_loadChain_of_history`).  It takes the change that was reported at a
position, on whatever chain, exactly when that position is the number of its rows;
its rows are then the history of one more key (`applyChange_of_history`).
-/

namespace Provenance

/-- The rows of a table are in a strict order, so their number fits into words. -/
theorem RowTable.le_of_ids {t : RowTable} {n : Nat}
    (ids : t.newestFirst.map Element.id = Position.countdown n) : n ≤ UInt64.size := by
  have sorted : (t.newestFirst.map Element.id).Pairwise fun later earlier => earlier < later :=
    List.pairwise_map.mpr t.sorted
  rw [ids] at sorted
  exact Position.le_of_pairwise_countdown sorted

theorem RowTable.next?_of_ids {t : RowTable} {n : Nat}
    (ids : t.newestFirst.map Element.id = Position.countdown n) :
    t.next? = if n < UInt64.size then some (.ofNat n) else none := by
  rw [RowTable.next?_eq_after?, ids]
  exact Position.after?_countdown (RowTable.le_of_ids ids)

namespace Ledger

variable {token : Token} {l : Ledger} {keys : List Key}

theorem loadRows_eq_ok_iff {rows : List Element} :
    l.loadRows token = .ok rows ↔ ∃ t, l.table = some t ∧ t.newestFirst = rows.reverse := by
  unfold loadRows getTable
  cases l.table with
  | none => simp [Except.map]
  | some t =>
    simp only [Except.map, Except.ok.injEq, Option.some.injEq, exists_eq_left', RowTable.rows]
    exact List.reverse_eq_iff

theorem length_le_of_history (history : l.loadRows token = .ok (History.rows token keys)) :
    keys.length ≤ UInt64.size := by
  obtain ⟨t, _, rows⟩ := loadRows_eq_ok_iff.mp history
  refine RowTable.le_of_ids (t := t) ?_
  rw [rows, History.map_id_reverse_rows]

/-- **A history loads as an intact chain.** -/
theorem exists_loadChain_of_history
    (history : l.loadRows token = .ok (History.rows token keys)) :
    ∃ c, l.loadChain token = .ok c ∧ c.token = token ∧
      c.newestFirst = (History.rows token keys).reverse ∧ c.brokenLink? = none := by
  have fits := length_le_of_history history
  obtain ⟨t, table, rows⟩ := loadRows_eq_ok_iff.mp history
  have contiguous : Contiguous (t.newestFirst.map Element.id) := by
    rw [rows, History.map_id_reverse_rows]
    exact Position.contiguous_countdown fits
  obtain ⟨c, loaded, htoken, elements⟩ := exists_loadChain_of_contiguous token table contiguous
  refine ⟨c, loaded, htoken, elements.trans rows, ?_⟩
  rw [Chain.brokenLink?, htoken, elements, rows]
  exact History.first?_reverse_rows token keys

/-- **A history takes the change of its next position**, and becomes the history of
one more key. -/
theorem applyChange_of_history {key : Key} (room : keys.length < UInt64.size)
    (history : l.loadRows token = .ok (History.rows token keys)) :
    ∃ t', l.applyChange token (.nth token keys.length key) key =
        ⟨[(Change.nth token keys.length key).event token], .ok { l with table := some t' }⟩ ∧
      t'.newestFirst = (History.rows token (keys ++ [key])).reverse := by
  obtain ⟨t, table, rows⟩ := loadRows_eq_ok_iff.mp history
  have ids : t.newestFirst.map Element.id = Position.countdown keys.length := by
    rw [rows, History.map_id_reverse_rows]
  have next : t.next? = some (.ofNat keys.length) := by
    rw [RowTable.next?_of_ids ids, if_pos room]
  obtain ⟨t', applied, grown⟩ := RowTable.apply_extending token key next
  rw [ids] at applied
  refine ⟨t', applyChange_of_ok table applied, ?_⟩
  rw [grown, rows, History.reverse_rows_concat]

/-- A change of any other position is refused. -/
theorem applyChange_of_history_of_ne {n : Nat} {key : Key} (fits : n < UInt64.size)
    (other : n ≠ keys.length) (history : l.loadRows token = .ok (History.rows token keys)) :
    l.applyChange token (.nth token n key) key = ⟨[], .error (.conflict token (.ofNat n))⟩ := by
  obtain ⟨t, table, rows⟩ := loadRows_eq_ok_iff.mp history
  have refused : t.next? ≠ some (Change.nth token n key).id := by
    rw [RowTable.next?_of_ids (by rw [rows, History.map_id_reverse_rows]), Change.id_nth]
    intro next
    split at next
    case isTrue room =>
      have same := congrArg UInt64.toNat (Option.some.inj next)
      rw [UInt64.toNat_ofNat_of_lt' room, UInt64.toNat_ofNat_of_lt' fits] at same
      exact other same.symm
    case isFalse => cases next
  rw [applyChange_of_error table (RowTable.apply_of_next?_ne refused), Change.id_nth, refusal]

end Ledger

end Provenance
