import Mathlib.Data.List.Induction
import Provenance.Proofs.Chain.Rebuild
set_option autoImplicit false

/-!
# Histories: which rows a sequence of keys leaves behind

A token that went from key to key, from the first position on, has rows that are
determined by the keys alone (`History.rows`): the generator of a row commits to
the key after it, and the owner of a row confirms the generator of the row after
it.  The last generator and the last two owners are not written yet.

`History.reverse_rows_concat` says that one more transfer makes the history of one
more key, and `History.first?_reverse_rows` that every link of a history holds.
-/

namespace Provenance

/-! ## Positions from the first one on -/

/-- The positions below a number, the greatest first. -/
def Position.countdown : Nat → List Position
  | 0 => []
  | n + 1 => .ofNat n :: countdown n

@[simp] theorem Position.length_countdown (n : Nat) : (Position.countdown n).length = n := by
  induction n with
  | zero => rfl
  | succ n ih => rw [Position.countdown, List.length_cons, ih]

theorem Position.next?_ofNat {n : Nat} (room : n + 1 < UInt64.size) :
    Position.next? (.ofNat n) = some (.ofNat (n + 1)) := by
  rw [Position.next?_eq_some_iff, UInt64.toNat_ofNat_of_lt' room,
    UInt64.toNat_ofNat_of_lt' (by omega)]

/-- Positions from the first one on go on at their number. -/
theorem Position.after?_countdown {n : Nat} (fits : n ≤ UInt64.size) :
    Position.after? (Position.countdown n) = if n < UInt64.size then some (.ofNat n) else none := by
  cases n with
  | zero => rfl
  | succ n =>
    rw [Position.countdown, Position.after?]
    by_cases room : n + 1 < UInt64.size
    · rw [if_pos room, Position.next?_ofNat room]
    · have last : n = UInt64.size - 1 := by omega
      rw [if_neg room, last, Position.next?_eq_none_iff]
      rfl

/-- Where numbers fit into words, the order tells that the next one fits too. -/
theorem Position.succ_lt_of_ofNat_lt {n : Nat} (fits : n < UInt64.size)
    (less : (UInt64.ofNat n) < UInt64.ofNat (n + 1)) : n + 1 < UInt64.size := by
  have size : UInt64.size = 2 ^ 64 := rfl
  rw [UInt64.lt_iff_toNat_lt, UInt64.toNat_ofNat_of_lt' fits, UInt64.toNat_ofNat'] at less
  omega

theorem Position.contiguous_countdown {n : Nat} (fits : n ≤ UInt64.size) :
    Contiguous (Position.countdown n) := by
  induction n with
  | zero => trivial
  | succ n ih =>
    cases n with
    | zero => trivial
    | succ n => exact ⟨Position.next?_ofNat (by omega), ih (by omega)⟩

/-- Contiguous positions fit into words. -/
theorem Position.le_of_contiguous_countdown {n : Nat}
    (contiguous : Contiguous (Position.countdown n)) : n ≤ UInt64.size := by
  induction n with
  | zero => exact Nat.zero_le _
  | succ n ih =>
    cases n with
    | zero => decide
    | succ n =>
      have fits := ih contiguous.2
      have room := Position.succ_lt_of_ofNat_lt (by omega) (Position.lt_of_next? contiguous.1)
      omega

/-- Positions that follow one another from the first one on are counted down. -/
theorem Position.eq_countdown_of_contiguous {ids : List Position} (contiguous : Contiguous ids)
    (fromZero : ∀ first, ids.getLast? = some first → first = 0) :
    ids = Position.countdown ids.length := by
  induction ids with
  | nil => rfl
  | cons later older ih =>
    cases older with
    | nil =>
      rw [fromZero later rfl]
      rfl
    | cons earlier older =>
      have rest := ih contiguous.2 fun first ends =>
        fromZero first (List.getLast?_cons_cons.trans ends)
      have counted : Contiguous (Position.countdown (earlier :: older).length) := by
        rw [← rest]
        exact contiguous.2
      have fits := Position.le_of_contiguous_countdown counted
      have next : Position.after? (earlier :: older) = some later := contiguous.1
      rw [rest, Position.after?_countdown fits] at next
      split at next
      · obtain rfl := Option.some.inj next
        exact congrArg (_ :: ·) rest
      · cases next

/-- Positions in a strict order fit into words. -/
theorem Position.le_of_pairwise_countdown {n : Nat}
    (sorted : (Position.countdown n).Pairwise fun later earlier => earlier < later) :
    n ≤ UInt64.size := by
  induction n with
  | zero => exact Nat.zero_le _
  | succ n ih =>
    cases n with
    | zero => decide
    | succ n =>
      obtain ⟨above, rest⟩ := List.pairwise_cons.mp sorted
      have fits := ih rest
      have room := Position.succ_lt_of_ofNat_lt (by omega) (above _ List.mem_cons_self)
      omega

/-- Counted down to the first one and read from there, positions are the numbers below
their number. -/
theorem Position.map_toNat_reverse_countdown {n : Nat} (fits : n ≤ UInt64.size) :
    (Position.countdown n).reverse.map UInt64.toNat = List.range n := by
  induction n with
  | zero => rfl
  | succ n ih =>
    rw [Position.countdown, List.reverse_cons, List.map_append, ih (by omega),
      List.range_succ, List.map_singleton, UInt64.toNat_ofNat_of_lt' (by omega)]

/-! ## The rows of a history -/

namespace History

/-- The row of a key among all the keys of a history: the next key makes the
generator, and the one after it the owner. -/
def row (token : Token) (keys : List Key) (i : Nat) (key : Key) : Element where
  id := .ofNat i
  key := key
  generator := keys[i + 1]?.map fun next => .derive (.ofNat (i + 1)) token next
  owner := keys[i + 2]?.map fun next => .derive (.derive (.ofNat (i + 2)) token next)

/-- The rows of the history in which a token went from key to key. -/
def rows (token : Token) (keys : List Key) : List Element :=
  keys.mapIdx (row token keys)

@[simp] theorem length_rows (token : Token) (keys : List Key) :
    (rows token keys).length = keys.length := by
  simp [rows]

theorem getElem?_rows (token : Token) (keys : List Key) (i : Nat) :
    (rows token keys)[i]? = keys[i]?.map (row token keys i) := by
  simp [rows]

@[simp] theorem map_key_rows (token : Token) (keys : List Key) :
    (rows token keys).map Element.key = keys := by
  refine List.ext_getElem? fun i => ?_
  rw [List.getElem?_map, getElem?_rows, Option.map_map]
  exact Option.map_id'

/-- The ids of a history count from zero, as long as words suffice. -/
theorem map_toNat_id_rows (token : Token) {keys : List Key} (fits : keys.length ≤ UInt64.size) :
    (rows token keys).map (fun row => row.id.toNat) = List.range keys.length := by
  refine List.ext_getElem (by simp) fun i inside inside' => ?_
  have room : i < UInt64.size := by
    have := List.length_range ▸ inside'
    omega
  simp only [rows, List.getElem_map, List.getElem_mapIdx, List.getElem_range, row]
  exact UInt64.toNat_ofNat_of_lt' room

/-- Keys that come later than the two after it do not matter for a row. -/
theorem row_append (token : Token) {keys later : List Key} {i : Nat} (key : Key)
    (inner : i + 2 < keys.length) : row token (keys ++ later) i key = row token keys i key := by
  unfold row
  rw [List.getElem?_append_left (by omega), List.getElem?_append_left inner]

/-- The rows before the last two are the same in a history of one more key. -/
theorem mapIdx_row_concat (token : Token) (keys : List Key) (first second third : Key) :
    keys.mapIdx (row token (keys ++ [first] ++ [second] ++ [third])) =
      keys.mapIdx (row token (keys ++ [first] ++ [second])) := by
  refine List.mapIdx_eq_mapIdx_iff.mpr fun i inside => ?_
  refine row_append token keys[i] ?_
  simp only [List.length_append, List.length_singleton]
  omega

/-- **One more key is one more transfer**, whichever key it is. -/
theorem reverse_rows_concat (token : Token) (keys : List Key) (key : Key) :
    (rows token (keys ++ [key])).reverse =
      Chain.extended token (.ofNat keys.length) key (rows token keys).reverse := by
  rcases List.eq_nil_or_concat keys with rfl | ⟨keys, last, rfl⟩
  · rfl
  · rcases List.eq_nil_or_concat keys with rfl | ⟨keys, e, rfl⟩
    · simp [rows, row, Chain.extended, Chain.confirm, Element.unlinked]
    · simp only [rows, List.concat_eq_append]
      rw [List.mapIdx_concat, List.mapIdx_concat, List.mapIdx_concat, List.mapIdx_concat,
        List.mapIdx_concat, mapIdx_row_concat]
      simp [row, Chain.extended, Chain.confirm, Element.unlinked, Nat.add_assoc,
        -UInt64.ofNat_add]

theorem map_id_reverse_rows (token : Token) (keys : List Key) :
    (rows token keys).reverse.map Element.id = Position.countdown keys.length := by
  induction keys using List.reverseRecOn with
  | nil => rfl
  | append_singleton keys key ih =>
    rw [reverse_rows_concat, Chain.map_id_extended, ih, List.length_append]
    rfl

/-- **Every link of a history holds.** -/
theorem first?_reverse_rows (token : Token) (keys : List Key) :
    BrokenLink.first? token (rows token keys).reverse = none := by
  induction keys using List.reverseRecOn with
  | nil => rfl
  | append_singleton keys key ih =>
    rw [reverse_rows_concat, Chain.first?_extended]
    exact Chain.first?_released_of_none ih

/-- The last row of a history waits for the next key. -/
theorem exists_reverse_rows_concat (token : Token) (keys : List Key) (key : Key) :
    ∃ older, (rows token (keys ++ [key])).reverse =
      .unlinked (.ofNat keys.length) key :: older := by
  rw [reverse_rows_concat]
  cases (rows token keys).reverse with
  | nil => exact ⟨_, rfl⟩
  | cons last older => exact ⟨_, rfl⟩

theorem getLast?_rows_concat (token : Token) (keys : List Key) (key : Key) :
    (rows token (keys ++ [key])).getLast? = some (.unlinked (.ofNat keys.length) key) := by
  obtain ⟨older, rows⟩ := exists_reverse_rows_concat token keys key
  rw [← List.head?_reverse, rows, List.head?_cons]

end History

/-- What a row may become while its token goes on: id and key stay, and so does a
generator or owner that is written. -/
structure Element.Kept (before after : Element) : Prop where
  id : after.id = before.id
  key : after.key = before.key
  generator : ∀ g, before.generator = some g → after.generator = some g
  owner : ∀ o, before.owner = some o → after.owner = some o

/-- Every row of a history is kept when more keys follow. -/
theorem History.kept_of_append {token : Token} {keys later : List Key} {i : Nat}
    {before : Element} (there : (History.rows token keys)[i]? = some before) :
    ∃ after, (History.rows token (keys ++ later))[i]? = some after ∧ before.Kept after := by
  have stays {j : Nat} {next : Key} (known : keys[j]? = some next) :
      (keys ++ later)[j]? = some next := by
    rw [List.getElem?_append_left (List.getElem?_eq_some_iff.mp known).1]
    exact known
  rw [History.getElem?_rows] at there
  obtain ⟨key, known, rfl⟩ := Option.map_eq_some_iff.mp there
  refine ⟨History.row token (keys ++ later) i key, ?_, rfl, rfl, ?_, ?_⟩
  · rw [History.getElem?_rows, stays known]
    rfl
  · intro g written
    obtain ⟨next, known', rfl⟩ := Option.map_eq_some_iff.mp written
    exact congrArg (Option.map _) (stays known')
  · intro o written
    obtain ⟨next, known', rfl⟩ := Option.map_eq_some_iff.mp written
    exact congrArg (Option.map _) (stays known')

/-! ## The change at a position -/

/-- The change that a transfer to `key` reports as the `n`-th one of a history that
starts at the first position. -/
def Change.nth (token : Token) (n : Nat) (key : Key) : Change :=
  .extending token (.ofNat n) key (Position.countdown n)

@[simp] theorem Change.id_nth (token : Token) (n : Nat) (key : Key) :
    (Change.nth token n key).id = .ofNat n := by
  rw [Change.nth, Change.id_extending]

/-- A transfer of elements that take the first `n` positions takes the next one.
What it does and reports is determined by that. -/
theorem Chain.handOver_of_countdown {c c' : Chain} {key : Key} {change : Change} {n : Nat}
    (ids : c.newestFirst.map Element.id = Position.countdown n)
    (accepted : c.handOver key = .ok (c', change)) :
    n < UInt64.size ∧ c'.token = c.token ∧
      c'.newestFirst = extended c.token (.ofNat n) key c.newestFirst ∧
      change = .nth c.token n key := by
  obtain ⟨id, takes, token, elements, _, rfl⟩ := handOver_eq_ok_iff.mp accepted
  have fits : n ≤ UInt64.size := Position.le_of_contiguous_countdown (ids ▸ c.contiguous)
  have next := after?_of_takes takes
  rw [ids, Position.after?_countdown fits] at next
  split at next
  case isTrue room =>
    obtain rfl := Option.some.inj next
    exact ⟨room, token, elements, by rw [ids, Change.nth]⟩
  case isFalse => cases next

/-! ## How a history goes on -/

namespace Chain

variable {c : Chain} {token : Token} {keys : List Key} {key : Key}

theorem next?_of_history (elements : c.newestFirst = (History.rows token keys).reverse)
    (fits : keys.length ≤ UInt64.size) :
    c.next? = if keys.length < UInt64.size then some (.ofNat keys.length) else none := by
  rw [next?_eq_after?, elements, History.map_id_reverse_rows]
  exact Position.after?_countdown fits

theorem map_key_last?_of_history
    (elements : c.newestFirst = (History.rows token keys).reverse) :
    c.last?.map Element.key = keys.getLast? := by
  rw [last?, elements, List.head?_reverse, ← List.getLast?_map, History.map_key_rows]

/-- A history goes on with every key but its last one, as long as there is a next
position. -/
theorem takes_of_history (room : keys.length < UInt64.size) (differs : keys.getLast? ≠ some key) :
    Takes (.ofNat keys.length) key (History.rows token keys).reverse := by
  rcases List.eq_nil_or_concat keys with rfl | ⟨keys, last, rfl⟩
  · rfl
  · rw [List.concat_eq_append] at room differs ⊢
    rw [List.length_append, List.length_singleton] at room ⊢
    rw [List.getLast?_concat, ne_eq, Option.some.injEq] at differs
    obtain ⟨older, rows⟩ := History.exists_reverse_rows_concat token keys last
    rw [rows]
    exact ⟨differs, rfl, Position.next?_ofNat room⟩

/-- After the greatest position a chain refuses all keys that it would take
otherwise. -/
theorem handOver_of_exhausted {last : Element} {older : List Element}
    (elements : c.newestFirst = last :: older) (differs : last.key ≠ key)
    (free : last.isBound = false) (exhausted : last.id.next? = none) :
    c.handOver key = .error .positionsExhausted := by
  have ends : c.last? = some last := by rw [last?, elements, List.head?_cons]
  have allowed : ¬(last.key = key ∨ last.isBound = true) := by simp [differs, free]
  exact handOver_eq_error_iff.mpr ⟨last, ends, .inr ⟨allowed, exhausted, rfl⟩⟩

/-- A history that has taken all positions goes on with no key. -/
theorem handOver_of_full_history (elements : c.newestFirst = (History.rows token keys).reverse)
    (fits : keys.length ≤ UInt64.size) (full : ¬keys.length < UInt64.size)
    (differs : keys.getLast? ≠ some key) : c.handOver key = .error .positionsExhausted := by
  have next := next?_of_history elements fits
  rw [if_neg full, next?_eq_after?] at next
  rcases List.eq_nil_or_concat keys with rfl | ⟨keys, last, rfl⟩
  · exact absurd (by decide) full
  · rw [List.concat_eq_append] at elements differs
    rw [List.getLast?_concat, ne_eq, Option.some.injEq] at differs
    obtain ⟨older, rows⟩ := History.exists_reverse_rows_concat token keys last
    rw [rows] at elements
    rw [elements] at next
    exact handOver_of_exhausted elements differs rfl next

end Chain

end Provenance
