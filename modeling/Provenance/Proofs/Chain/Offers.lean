import Provenance.Proofs.Chain.History
set_option autoImplicit false

/-!
# Offers: what any sequence of keys makes of a chain

A chain starts without elements, or with the element of a holder, and is offered one
key after another.  Some offers are accepted and some refused, in any order.

`elements_of_offers` says what comes out.  An offer is refused for its key only if
that is the last key, or at the end of all positions, and leaves no trace.  The
elements are determined by the accepted keys: they are the rows of the history of
these keys (`Start.rows`).  A chain that started with a holder shows it in its first
element alone, which repeats its own key in the cells that no transfer has written.
-/

namespace Provenance

/-- The element with its own key in the cells that are not written yet. -/
def Element.selfLinked (e : Element) : Element :=
  { e with
    generator := e.generator.or (some (.ofKey e.key))
    owner := e.owner.or (some (.ofKey e.key)) }

namespace Chain

/-! ## Offering keys -/

/-- The chain after an offer, whether it is accepted or refused. -/
def offer (c : Chain) (key : Key) : Chain :=
  ((InPlace.handOver key).run c).2

theorem offer_of_ok {c c' : Chain} {key : Key} {change : Change}
    (accepted : c.handOver key = .ok (c', change)) : c.offer key = c' :=
  (run_handOver_of_ok accepted).2

theorem offer_of_error {c : Chain} {key : Key} {e : ChainError}
    (refused : c.handOver key = .error e) : c.offer key = c :=
  (run_handOver_of_error refused).2

/-- The chain after one offer after another. -/
def offerAll (c : Chain) (keys : List Key) : Chain :=
  keys.foldl offer c

/-- The keys of the accepted offers, in their order. -/
def accepted (c : Chain) : List Key → List Key
  | [] => []
  | key :: keys =>
    match ((InPlace.handOver key).run c).1.result with
    | .ok _ => key :: (c.offer key).accepted keys
    | .error _ => (c.offer key).accepted keys

/-- How a chain can start. -/
inductive Start where
  /-- Without elements. -/
  | vacant (token : Token) (expectedLength : UInt64)
  /-- With the element of a holder. -/
  | held (data : List UInt8) (passphrase : String)
  deriving DecidableEq, Repr, Inhabited

namespace Start

/-- The chain at its start. -/
def chain : Start → Chain
  | .vacant token expectedLength => .empty token expectedLength
  | .held data passphrase => .create data passphrase

/-- The key that the chain starts with, if there is one. -/
def keys : Start → List Key
  | .vacant .. => []
  | .held data passphrase => [.first (.ofData data) passphrase]

/-- The rows of a chain that went from key to key. -/
def rows : Start → List Key → List Element
  | .vacant token _, keys => History.rows token keys
  | .held data _, keys => (History.rows (.ofData data) keys).modifyHead Element.selfLinked

/-! ## The rows of one more key -/

/-- A transfer treats an oldest element that repeats its key as any other. -/
theorem exists_extended_concat (token : Token) (id : Position) (key : Key)
    (newer : List Element) (oldest : Element) :
    ∃ newer' oldest',
      extended token id key (newer ++ [oldest]) = newer' ++ [oldest'] ∧
      extended token id key (newer ++ [oldest.selfLinked]) = newer' ++ [oldest'.selfLinked] := by
  cases newer with
  | nil => exact ⟨[_], _, rfl, rfl⟩
  | cons last newer =>
    cases newer with
    | nil => exact ⟨[_, _], _, rfl, rfl⟩
    | cons e newer => exact ⟨_ :: _ :: _ :: newer, oldest, rfl, rfl⟩

theorem reverse_modifyHead_of_reverse_eq {rows newer : List Element} {oldest : Element}
    (ends : rows.reverse = newer ++ [oldest]) :
    (rows.modifyHead Element.selfLinked).reverse = newer ++ [oldest.selfLinked] := by
  rw [List.reverse_eq_iff.mp ends]
  simp

/-- **One more key is one more transfer**, however the chain started. -/
theorem reverse_rows_concat (start : Start) {keys : List Key} (begins : start.keys <+: keys)
    (key : Key) :
    (start.rows (keys ++ [key])).reverse =
      extended start.chain.token (.ofNat keys.length) key (start.rows keys).reverse := by
  cases start with
  | vacant token expectedLength => exact History.reverse_rows_concat token keys key
  | held data passphrase =>
    obtain ⟨later, rfl⟩ := begins
    have present : (History.rows (.ofData data)
        (keys (.held data passphrase) ++ later)).reverse ≠ [] := by
      simp [History.rows, keys]
    obtain ⟨newer, oldest, ends⟩ := (List.eq_nil_or_concat _).resolve_left present
    rw [List.concat_eq_append] at ends
    obtain ⟨newer', oldest', grown, grown'⟩ := exists_extended_concat (.ofData data)
      (.ofNat (keys (.held data passphrase) ++ later).length) key newer oldest
    rw [← ends, ← History.reverse_rows_concat] at grown
    rw [rows, rows, reverse_modifyHead_of_reverse_eq ends,
      reverse_modifyHead_of_reverse_eq grown]
    exact grown'.symm

theorem map_id_reverse_rows (start : Start) (keys : List Key) :
    (start.rows keys).reverse.map Element.id = Position.countdown keys.length := by
  cases start with
  | vacant token expectedLength => exact History.map_id_reverse_rows token keys
  | held data passphrase =>
    rw [← History.map_id_reverse_rows (.ofData data) keys, rows]
    cases History.rows (.ofData data) keys with
    | nil => rfl
    | cons first rest => simp [Element.selfLinked]

end Start

/-! ## What every offer keeps -/

/-- A chain that went from key to key: it has the rows of these keys, its links hold,
and its last element waits for a successor. -/
structure Reached (start : Start) (keys : List Key) (c : Chain) : Prop where
  token : c.token = start.chain.token
  expectedLength : c.expectedLength = start.chain.expectedLength
  begins : start.keys <+: keys
  elements : c.newestFirst = (start.rows keys).reverse
  intact : c.brokenLink? = none
  free : ∀ last, c.last? = some last → last.isBound = false

variable {start : Start} {keys : List Key} {c c' : Chain} {key : Key} {change : Change}

theorem map_id_of_reached (reached : Reached start keys c) :
    c.newestFirst.map Element.id = Position.countdown keys.length := by
  rw [reached.elements, start.map_id_reverse_rows]

/-- Every key has a position of its own. -/
theorem length_le_of_reached (reached : Reached start keys c) : keys.length ≤ UInt64.size :=
  Position.le_of_contiguous_countdown (map_id_of_reached reached ▸ c.contiguous)

theorem reached_start (start : Start) : Reached start start.keys start.chain where
  token := rfl
  expectedLength := rfl
  begins := List.prefix_rfl
  elements := by cases start <;> rfl
  intact := by cases start <;> rfl
  free := by
    intro last ends
    cases start with
    | vacant token expectedLength => cases ends
    | held data passphrase =>
      obtain rfl := Option.some.inj ends
      exact bne_self_eq_false _

/-- The last element after a transfer waits for a successor. -/
theorem isBound_of_handOver (accepted : c.handOver key = .ok (c', change)) {last : Element}
    (ends : c'.last? = some last) : last.isBound = false := by
  obtain ⟨id, _, _, elements, _⟩ := handOver_eq_ok_iff.mp accepted
  rw [last?, elements] at ends
  cases older : c.newestFirst with
  | nil =>
    rw [older] at ends
    obtain rfl := Option.some.inj ends
    rfl
  | cons before older' =>
    rw [older] at ends
    obtain rfl := Option.some.inj ends
    rfl

/-- **An accepted offer adds its key.** -/
theorem reached_handOver (reached : Reached start keys c)
    (accepted : c.handOver key = .ok (c', change)) : Reached start (keys ++ [key]) c' where
  token :=
    (handOver_of_countdown (map_id_of_reached reached) accepted).2.1.trans reached.token
  expectedLength := by
    obtain ⟨_, _, _, _, same, _⟩ := handOver_eq_ok_iff.mp accepted
    exact same.trans reached.expectedLength
  begins := reached.begins.trans (List.prefix_append keys [key])
  elements := by
    obtain ⟨_, _, grown, _⟩ := handOver_of_countdown (map_id_of_reached reached) accepted
    rw [grown, reached.token, reached.elements, start.reverse_rows_concat reached.begins]
  intact := intact_of_handOver accepted reached.intact
  free := fun _ => isBound_of_handOver accepted

/-- Any sequence of offers adds the accepted keys. -/
theorem reached_offerAll (reached : Reached start keys c) (offers : List Key) :
    Reached start (keys ++ c.accepted offers) (c.offerAll offers) := by
  induction offers generalizing keys c with
  | nil =>
    rw [accepted, List.append_nil]
    exact reached
  | cons key offers ih =>
    rw [accepted, offerAll, List.foldl_cons]
    cases answer : c.handOver key with
    | error e =>
      rw [(run_handOver_of_error answer).1, offer_of_error answer]
      exact ih reached
    | ok outcome =>
      obtain ⟨c', change⟩ := outcome
      rw [(run_handOver_of_ok answer).1, offer_of_ok answer, List.append_cons]
      exact ih (reached_handOver reached answer)

/-- An offer to a chain whose last element waits is refused if its key is the last
one, or after the greatest position, and for nothing else. -/
theorem handOver_of_free (free : ∀ last, c.last? = some last → last.isBound = false) (key : Key) :
    ((∃ c' change, c.handOver key = .ok (c', change)) ↔
      ∀ last, c.last? = some last → last.key ≠ key ∧ last.id ≠ .greatest) ∧
    ∀ e, c.handOver key = .error e → ∃ last, c.last? = some last ∧
      (last.key = key ∧ e = .alreadyBound last.id ∨
        last.key ≠ key ∧ last.id = .greatest ∧ e = .positionsExhausted) := by
  have refusal : ∀ e, c.handOver key = .error e → ∃ last, c.last? = some last ∧
      (last.key = key ∧ e = .alreadyBound last.id ∨
        last.key ≠ key ∧ last.id = .greatest ∧ e = .positionsExhausted) := by
    intro e refused
    obtain ⟨last, ends, reason⟩ := handOver_eq_error_iff.mp refused
    refine ⟨last, ends, ?_⟩
    simpa [free last ends, Position.next?_eq_none_iff] using reason
  refine ⟨⟨fun accepted last ends => ?_, fun fits => ?_⟩, refusal⟩
  · obtain ⟨c', change, accepted⟩ := accepted
    obtain ⟨id, takes, _⟩ := handOver_eq_ok_iff.mp accepted
    obtain ⟨older, elements⟩ := List.head?_eq_some_iff.mp ends
    rw [elements] at takes
    obtain ⟨differs, _, next⟩ := takes
    refine ⟨differs, fun greatest => ?_⟩
    rw [Position.next?_eq_none_iff.mpr greatest] at next
    cases next
  · cases answer : c.handOver key with
    | ok outcome => exact ⟨outcome.1, outcome.2, rfl⟩
    | error e =>
      obtain ⟨last, ends, reason⟩ := refusal e answer
      obtain ⟨differs, inner⟩ := fits last ends
      rcases reason with ⟨same, _⟩ | ⟨_, greatest, _⟩
      · exact absurd same differs
      · exact absurd greatest inner

/-- **The closed form of a chain.**  However a chain started and whatever keys it was
offered, in any order and any number of times:

* its elements are the rows of its first key, if it started with one, and of the keys
  that it accepted; token and expected length are those of its start;
* every link holds;
* the next offer is accepted exactly if there is no element yet, or the last one has
  another key and not the greatest position.  A refused one is answered with the
  position of the last element if the key is the same, and else with the end of all
  positions. -/
theorem elements_of_offers (start : Start) (offers : List Key) :
    let c := start.chain.offerAll offers
    c.elements = start.rows (start.keys ++ start.chain.accepted offers) ∧
      c.token = start.chain.token ∧ c.expectedLength = start.chain.expectedLength ∧
      c.brokenLink? = none ∧
      ∀ key,
        ((∃ c' change, c.handOver key = .ok (c', change)) ↔
          ∀ last, c.last? = some last → last.key ≠ key ∧ last.id ≠ .greatest) ∧
        ∀ e, c.handOver key = .error e → ∃ last, c.last? = some last ∧
          (last.key = key ∧ e = .alreadyBound last.id ∨
            last.key ≠ key ∧ last.id = .greatest ∧ e = .positionsExhausted) := by
  intro c
  have reached : Reached start (start.keys ++ start.chain.accepted offers) c :=
    reached_offerAll (reached_start start) offers
  refine ⟨?_, reached.token, reached.expectedLength, reached.intact, ?_⟩
  · rw [Chain.elements, reached.elements, List.reverse_reverse]
  · exact handOver_of_free reached.free

end Chain

end Provenance
