import Provenance.Proofs.Chain.Transfer
set_option autoImplicit false

/-!
# Rebuilding a chain from stored elements

`Chain.ofElements` takes stored elements in the order of their ids and looks at
nothing but the ids.  `ofElements_eq_ok_iff` says exactly which chain comes out:
the one with those elements, whenever there is one.  So rebuilding succeeds for
contiguous ids and for no others.
-/

namespace Provenance

/-- Ids that follow one another still do without the newest of them. -/
theorem Contiguous.of_append {newer older : List Position}
    (contiguous : Contiguous (newer ++ older)) : Contiguous older := by
  induction newer with
  | nil => exact contiguous
  | cons later newer ih =>
    apply ih
    cases rest : newer ++ older with
    | nil => trivial
    | cons earlier rest' =>
      rw [List.cons_append, rest] at contiguous
      exact contiguous.2

namespace Chain

/-! ## Adding one element -/

/-- A stored element is taken in by the chain that has it on top, if its id allows
for such a chain. -/
theorem push_eq_ok_iff {c c' : Chain} {row : Element} :
    c.push row = .ok c' ↔
      c'.token = c.token ∧ c'.newestFirst = row :: c.newestFirst ∧
        c'.expectedLength = c.expectedLength := by
  have known := c'.contiguous
  obtain ⟨token, newestFirst, expectedLength, contiguous⟩ := c
  cases newestFirst with
  | nil =>
    simp only [push_nil, Except.ok.injEq]
    constructor
    · intro same
      obtain rfl := same
      exact ⟨rfl, rfl, rfl⟩
    · intro grown
      obtain ⟨htoken, helements, hlength⟩ := grown
      exact (eq_of_newestFirst_eq htoken helements hlength).symm
  | cons last older =>
    constructor
    · intro pushed
      cases next : last.id.next? with
      | none =>
        rw [push_of_end contiguous next] at pushed
        cases pushed
      | some expected =>
        by_cases same : row.id = expected
        · rw [push_of_next contiguous (same ▸ next)] at pushed
          obtain rfl := Except.ok.inj pushed
          exact ⟨rfl, rfl, rfl⟩
        · rw [push_of_other contiguous next same] at pushed
          cases pushed
    · intro grown
      obtain ⟨htoken, helements, hlength⟩ := grown
      rw [helements] at known
      rw [push_of_next contiguous known.1, Except.ok.injEq, eq_comm]
      exact eq_of_newestFirst_eq htoken helements hlength

/-! ## Adding all of them -/

/-- Stored elements are taken in one after another by the chain that has all of
them on top. -/
theorem foldlM_push_eq_ok_iff {c c' : Chain} {rows : List Element} :
    rows.foldlM (fun c row => c.push row) c = .ok c' ↔
      c'.token = c.token ∧ c'.newestFirst = rows.reverse ++ c.newestFirst ∧
        c'.expectedLength = c.expectedLength := by
  induction rows generalizing c with
  | nil =>
    simp only [List.foldlM_nil, List.reverse_nil, List.nil_append]
    constructor
    · intro same
      obtain rfl := Except.ok.inj same
      exact ⟨rfl, rfl, rfl⟩
    · intro grown
      obtain ⟨htoken, helements, hlength⟩ := grown
      exact congrArg Except.ok (eq_of_newestFirst_eq htoken helements hlength).symm
  | cons row rows ih =>
    rw [List.foldlM_cons, List.reverse_cons, List.append_assoc, List.singleton_append]
    constructor
    · intro folded
      cases pushed : c.push row with
      | error error =>
        rw [pushed] at folded
        cases folded
      | ok mid =>
        rw [pushed] at folded
        obtain ⟨htoken, helements, hlength⟩ := ih.mp folded
        obtain ⟨htoken', helements', hlength'⟩ := push_eq_ok_iff.mp pushed
        exact ⟨htoken.trans htoken', by rw [helements, helements'], hlength.trans hlength'⟩
    · intro grown
      obtain ⟨htoken, helements, hlength⟩ := grown
      -- The ids of `c'` leave room for `row` on top of `c`.
      have room : Contiguous ((row :: c.newestFirst).map Element.id) := by
        have known := c'.contiguous
        rw [helements, List.map_append] at known
        exact known.of_append
      let mid : Chain := ⟨c.token, row :: c.newestFirst, c.expectedLength, room⟩
      have pushed : c.push row = .ok mid := push_eq_ok_iff.mpr ⟨rfl, rfl, rfl⟩
      rw [pushed]
      exact ih.mpr ⟨htoken, helements, hlength⟩

/-- Rebuilding gives the chain with these elements, and succeeds whenever there is
one. -/
theorem ofElements_eq_ok_iff {token : Token} {rows : List Element} {c : Chain} :
    ofElements token rows = .ok c ↔
      c.token = token ∧ c.newestFirst = rows.reverse ∧
        c.expectedLength = .ofNat rows.length := by
  rw [ofElements, foldlM_push_eq_ok_iff]
  simp [empty]

/-- Elements of contiguous ids are a chain of any token. -/
theorem exists_ofElements_of_contiguous (token : Token) {rows : List Element}
    (contiguous : Contiguous (rows.reverse.map Element.id)) :
    ∃ c, ofElements token rows = .ok c ∧ c.token = token ∧ c.elements = rows := by
  let c : Chain := ⟨token, rows.reverse, .ofNat rows.length, contiguous⟩
  exact ⟨c, ofElements_eq_ok_iff.mpr ⟨rfl, rfl, rfl⟩, rfl, List.reverse_reverse rows⟩

end Chain

end Provenance
