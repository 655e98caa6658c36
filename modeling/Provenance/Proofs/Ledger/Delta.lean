import Provenance.Proofs.Chain.Rebuild
import Provenance.Proofs.Ledger.InPlace
set_option autoImplicit false

/-!
# Deltas: a reported change, carried out on a row table

A transfer rewrites the elements of a chain in place and reports the cells it
wrote; a row table writes the reported cells to the rows of the ids that the
report names.  `RowTable.apply_extending` says that the two agree: on a table
whose next id is that of the report, all checks pass, and the rows become those
that the transfer would have made of them.  It does not matter whose chain the
transfer was made on, as long as its ids are those of the table.
-/

namespace Provenance

namespace RowTable

theorem next?_eq_after? (t : RowTable) :
    t.next? = Position.after? (t.newestFirst.map Element.id) := by
  unfold next?
  cases t.newestFirst with
  | nil => rfl
  | cons last older => rfl

/-- A row of the table is found by its id. -/
theorem contains_of_mem {t : RowTable} {row : Element} (member : row ∈ t.newestFirst) :
    t.contains row.id = true := by
  rw [contains, List.any_eq_true]
  exact ⟨row, member, beq_self_eq_true row.id⟩

/-- A cell is written to no row below the one it belongs to. -/
theorem map_write_of_below {id : Position} {write : Element → Element} {rows : List Element}
    (below : ∀ row ∈ rows, row.id < id) :
    rows.map (fun row => if row.id = id then write row else row) = rows := by
  have same : ∀ row ∈ rows, (if row.id = id then write row else row) = row := by
    intro row member
    exact if_neg (UInt64.ne_of_lt (below row member))
  exact List.map_congr_left same |>.trans (List.map_id' rows)

/-- A generator that is written one row below the newest one. -/
theorem newestFirst_writeGenerator {t : RowTable} {new last : Element} {older : List Element}
    (rows : t.newestFirst = new :: last :: older) (generator : Generator) :
    (t.writeGenerator last.id (some generator)).newestFirst =
      new :: { last with generator := some generator } :: older := by
  have sorted := t.sorted
  rw [rows, List.pairwise_cons, List.pairwise_cons] at sorted
  obtain ⟨above, below, _⟩ := sorted
  have newer : new.id ≠ last.id := (UInt64.ne_of_lt (above last List.mem_cons_self)).symm
  simp only [writeGenerator, rows, List.map_cons, if_neg newer, if_true]
  rw [map_write_of_below below]

/-- An owner that is written two rows below the newest one. -/
theorem newestFirst_writeOwner {t : RowTable} {new last e : Element} {older : List Element}
    (rows : t.newestFirst = new :: last :: e :: older) (owner : Owner) :
    (t.writeOwner e.id (some owner)).newestFirst =
      new :: last :: { e with owner := some owner } :: older := by
  have sorted := t.sorted
  rw [rows, List.pairwise_cons, List.pairwise_cons, List.pairwise_cons] at sorted
  obtain ⟨above, between, below, _⟩ := sorted
  have newer : new.id ≠ e.id :=
    (UInt64.ne_of_lt (above e (List.mem_cons_of_mem _ List.mem_cons_self))).symm
  have newer' : last.id ≠ e.id := (UInt64.ne_of_lt (between e List.mem_cons_self)).symm
  simp only [writeOwner, rows, List.map_cons, if_neg newer, if_neg newer', if_true]
  rw [map_write_of_below below]

/-- **Deltas do what transfers do.**  A change that was reported on elements of
the same ids is accepted by a table with room for it, and makes of the rows what
the transfer would have made of them. -/
theorem apply_extending {t : RowTable} {id : Position} (token : Token) (key : Key)
    (next : t.next? = some id) :
    ∃ t', t.apply (.extending token id key (t.newestFirst.map Element.id)) key = .ok t' ∧
      t'.newestFirst = Chain.extended token id key t.newestFirst := by
  have grown : (t.overwrite (.unlinked id key)).newestFirst =
      .unlinked id key :: t.newestFirst := newestFirst_overwrite_of_next next
  cases rows : t.newestFirst with
  | nil =>
    simp only [apply_eq, Change.extending, List.map_nil, Change.first]
    rw [if_pos next]
    exact ⟨_, rfl, by rw [rows] at grown; exact grown⟩
  | cons last older =>
    have there : t.contains last.id = true :=
      contains_of_mem (by rw [rows]; exact List.mem_cons_self)
    rw [rows] at grown
    have committed := newestFirst_writeGenerator grown (.derive id token key)
    cases older with
    | nil =>
      simp only [apply_eq, Change.extending, List.map_cons, List.map_nil]
      rw [if_pos next, there]
      exact ⟨_, rfl, committed⟩
    | cons e older =>
      have there' : t.contains e.id = true :=
        contains_of_mem (by rw [rows]; exact List.mem_cons_of_mem _ List.mem_cons_self)
      simp only [apply_eq, Change.extending, List.map_cons]
      rw [if_pos next, there]
      simp only [List.head?_cons, Option.map_some, Option.getD_some, there']
      exact ⟨_, rfl, newestFirst_writeOwner committed (.derive (.derive id token key))⟩

/-! ## Any change -/

@[simp] theorem map_id_writeGenerator (t : RowTable) (id : Position)
    (generator : Option Generator) :
    (t.writeGenerator id generator).newestFirst.map Element.id =
      t.newestFirst.map Element.id := by
  cases generator with
  | none => rfl
  | some generator =>
    rw [writeGenerator, List.map_map]
    exact List.map_congr_left fun row _ => by simp only [Function.comp_apply]; split <;> rfl

@[simp] theorem map_id_writeOwner (t : RowTable) (id : Position) (owner : Option Owner) :
    (t.writeOwner id owner).newestFirst.map Element.id = t.newestFirst.map Element.id := by
  cases owner with
  | none => rfl
  | some owner =>
    rw [writeOwner, List.map_map]
    exact List.map_congr_left fun row _ => by simp only [Function.comp_apply]; split <;> rfl

/-- **An accepted change adds the next id**, whatever cells it writes. -/
theorem map_id_of_apply {t t' : RowTable} {change : Change} {key : Key}
    (applied : t.apply change key = .ok t') :
    t.next? = some change.id ∧
      t'.newestFirst.map Element.id = change.id :: t.newestFirst.map Element.id := by
  rw [apply_eq] at applied
  split at applied
  case isTrue next =>
    refine ⟨next, ?_⟩
    split at applied
    · cases applied
    · split at applied
      · cases applied
      · obtain rfl := Except.ok.inj applied
        rw [map_id_writeOwner, map_id_writeGenerator, newestFirst_overwrite_of_next next]
        rfl
  case isFalse => cases applied

/-- A change for any other id than the next one is refused. -/
theorem apply_of_next?_ne {t : RowTable} {change : Change} {key : Key}
    (other : t.next? ≠ some change.id) : t.apply change key = .error (.notNext change.id) := by
  rw [apply_eq, if_neg other]

end RowTable

end Provenance
