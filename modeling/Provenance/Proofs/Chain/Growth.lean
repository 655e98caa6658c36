import Provenance.Proofs.Chain.Rebuild
set_option autoImplicit false

/-!
# Growth: what no call takes back

A chain grows by stored elements that are pushed as they are and by transfers, in any
order, and some of these calls are refused.  A pushed element may have any generator
and any owner, so the chain can be as damaged as one likes.

`appendOnly_of_calls` says what holds nevertheless: the ids follow one another and fit
into words, and no call takes back an element or changes its id or its key
(`Element.mark`).  What a transfer rewrites are commitments only.  Which calls are
refused, and with what answer, is decided by the last element alone.
-/

namespace Provenance

/-! ## Ids as numbers -/

/-- Ids that follow one another up to `later` are counted from the oldest. -/
theorem Contiguous.exists_base {later : Position} {older : List Position}
    (contiguous : Contiguous (later :: older)) :
    ∃ base, base + older.length = later.toNat ∧
      (later :: older).reverse.map UInt64.toNat = List.range' base (older.length + 1) := by
  induction older generalizing later with
  | nil => exact ⟨later.toNat, by simp⟩
  | cons earlier older ih =>
    obtain ⟨next, rest⟩ := contiguous
    obtain ⟨base, ends, counted⟩ := ih rest
    have follows : later.toNat = base + (older.length + 1) := by
      rw [Position.next?_eq_some_iff.mp next, ← ends, Nat.add_assoc]
    refine ⟨base, follows.symm, ?_⟩
    rw [List.reverse_cons, List.map_append, counted, List.length_cons,
      List.range'_1_concat (n := older.length + 1), ← follows]
    rfl

/-- What no call changes in an element: its id and its key. -/
def Element.mark (e : Element) : Position × Key := (e.id, e.key)

/-- Whether the element is not handed over to a key: it has that key itself, or a
generator that is not just its own key. -/
def Element.Withholds (e : Element) (key : Key) : Prop :=
  key = e.key ∨ ∃ g, e.generator = some g ∧ g.text ≠ e.key.text

theorem Element.withholds_iff {e : Element} {key : Key} :
    e.Withholds key ↔ e.key = key ∨ e.isBound = true := by
  rw [Withholds, isBound_iff, eq_comm]

namespace Chain

variable {c c' : Chain} {row : Element} {key : Key} {change : Change} {e : ChainError}

/-- The ids and keys of the elements, in the order of the ids. -/
def marks (c : Chain) : List (Position × Key) := c.elements.map Element.mark

/-- The ids of a chain count on from the first one and stay below the number of words. -/
theorem exists_base (c : Chain) :
    ∃ base, base + c.length ≤ UInt64.size ∧
      c.elements.map (fun e => e.id.toNat) = List.range' base c.length := by
  have contiguous := c.contiguous
  cases newestFirst : c.newestFirst with
  | nil =>
    refine ⟨0, ?_⟩
    simp [length, elements, newestFirst]
  | cons last older =>
    rw [newestFirst] at contiguous
    obtain ⟨base, ends, counted⟩ := contiguous.exists_base
    have bound : last.id.toNat < UInt64.size := last.id.toNat_lt
    refine ⟨base, ?_, ?_⟩
    · rw [length, newestFirst, List.length_cons]
      rw [List.length_map] at ends
      omega
    · simpa [elements, length, newestFirst, Function.comp_def] using counted

/-! ## Calls -/

/-- A call that makes a chain grow, if it is accepted. -/
inductive Call where
  /-- Adds a stored element. -/
  | push (row : Element)
  /-- Hands the token over to a key. -/
  | handOver (key : Key)
  deriving DecidableEq, Repr, Inhabited

/-- Carries out a call, in place.  The answer is a change if it is a transfer. -/
def perform : Call → Procedure Chain ChainError (Option Change)
  | .push row => do
    InPlace.push row
    return none
  | .handOver key => some <$> InPlace.handOver key

/-- The answer to a call and the chain that is left. -/
def respond (c : Chain) (call : Call) : Except ChainError (Option Change) × Chain :=
  (((perform call).run c).1.result, ((perform call).run c).2)

/-- The chain after one call after another. -/
def after (c : Chain) (calls : List Call) : Chain :=
  calls.foldl (fun c call => (c.respond call).2) c

theorem allOrNothing_perform (call : Call) : (perform call).AllOrNothing := by
  cases call with
  | push row => exact (allOrNothing_push row).then_neverFails fun _ => Procedure.neverFails_pure _
  | handOver key => exact (allOrNothing_handOver key).map some

/-- A call that is refused leaves the chain as it was. -/
theorem respond_eq (c : Chain) (call : Call) :
    c.respond call =
      match ((perform call).outcome c).result with
      | .error e => (.error e, c)
      | .ok (answer, c') => (.ok answer, c') := by
  cases result : ((perform call).outcome c).result with
  | error e =>
    obtain ⟨answer, left⟩ := (allOrNothing_perform call).run_of_error result
    rw [respond, answer, left]
  | ok outcome =>
    obtain ⟨answer, left⟩ := Procedure.run_of_ok result
    rw [respond, answer, left]

theorem respond_push (c : Chain) (row : Element) :
    c.respond (.push row) =
      match c.push row with
      | .error e => (.error e, c)
      | .ok c' => (.ok none, c') := by
  rw [respond_eq, push]
  simp only [perform, Procedure.outcome_bind, Procedure.outcome_pure, bind_pure_comp,
    Logged.result_map]
  cases ((InPlace.push row).outcome c).result <;> rfl

theorem respond_handOver (c : Chain) (key : Key) :
    c.respond (.handOver key) =
      match c.handOver key with
      | .error e => (.error e, c)
      | .ok (c', change) => (.ok (some change), c') := by
  rw [respond_eq, handOver]
  simp only [perform, Procedure.outcome_map, Logged.result_map]
  cases ((InPlace.handOver key).outcome c).result <;> rfl

/-! ## What is refused -/

/-- A stored element is refused by the last one: nothing comes after it, or something
else does. -/
theorem push_eq_error_iff :
    c.push row = .error e ↔
      ∃ last, c.last? = some last ∧
        (last.id = .greatest ∧ e = .positionsExhausted ∨
          ∃ expected, last.id.next? = some expected ∧ row.id ≠ expected ∧
            e = .outOfOrder expected row.id) := by
  obtain ⟨token, newestFirst, expectedLength, contiguous⟩ := c
  cases newestFirst with
  | nil => simp [push_nil, last?]
  | cons last older =>
    simp only [last?, List.head?_cons, Option.some.injEq, exists_eq_left']
    rw [← Position.next?_eq_none_iff]
    cases next : last.id.next? with
    | none => simp [push_of_end contiguous next, eq_comm]
    | some expected =>
      by_cases same : row.id = expected
      · simp [push_of_next contiguous (same ▸ next), same]
      · simp [push_of_other contiguous next same, same, @eq_comm _ e]

/-- A stored element is taken in as the first one, or with the id after the last. -/
theorem exists_push_iff :
    (∃ c', c.push row = .ok c') ↔
      ∀ last, c.last? = some last → last.id < .greatest ∧ row.id.toNat = last.id.toNat + 1 := by
  constructor
  · intro accepted last ends
    obtain ⟨c', pushed⟩ := accepted
    obtain ⟨older, elements⟩ := List.head?_eq_some_iff.mp ends
    have contiguous := c'.contiguous
    rw [(push_eq_ok_iff.mp pushed).2.1, elements] at contiguous
    have next : last.id.next? = some row.id := contiguous.1
    refine ⟨Position.lt_greatest_iff.mpr fun greatest => ?_, Position.next?_eq_some_iff.mp next⟩
    rw [Position.next?_eq_none_iff.mpr greatest] at next
    cases next
  · intro fits
    cases answer : c.push row with
    | ok c' => exact ⟨c', rfl⟩
    | error e =>
      obtain ⟨last, ends, reason⟩ := push_eq_error_iff.mp answer
      obtain ⟨inner, follows⟩ := fits last ends
      rcases reason with ⟨greatest, _⟩ | ⟨expected, next, differs, _⟩
      · exact absurd greatest (Position.lt_greatest_iff.mp inner)
      · rw [Position.next?_eq_some_iff.mpr follows] at next
        exact absurd (Option.some.inj next) differs

/-- Which calls a chain refuses, with what answer, and what is left then. -/
structure Decides (c : Chain) : Prop where
  push_accepted : ∀ row,
    (∃ answer, (c.respond (.push row)).1 = .ok answer) ↔
      ∀ last, c.last? = some last → last.id < .greatest ∧ row.id.toNat = last.id.toNat + 1
  push_refused : ∀ row e,
    (c.respond (.push row)).1 = .error e ↔
      ∃ last, c.last? = some last ∧
        (last.id = .greatest ∧ e = .positionsExhausted ∨
          ∃ expected : Position, expected.toNat = last.id.toNat + 1 ∧ row.id ≠ expected ∧
            e = .outOfOrder expected row.id)
  handOver_refused : ∀ key e,
    (c.respond (.handOver key)).1 = .error e ↔
      ∃ last, c.last? = some last ∧
        (last.Withholds key ∧ e = .alreadyBound last.id ∨
          ¬last.Withholds key ∧ last.id = .greatest ∧ e = .positionsExhausted)
  unchanged : ∀ call e, (c.respond call).1 = .error e → (c.respond call).2 = c

theorem decides (c : Chain) : c.Decides where
  push_accepted row := by
    rw [respond_push, ← exists_push_iff]
    cases c.push row <;> simp
  push_refused row e := by
    have refused : (c.respond (.push row)).1 = .error e ↔ c.push row = .error e := by
      rw [respond_push]
      cases c.push row <;> simp
    simp only [refused, push_eq_error_iff, Position.next?_eq_some_iff]
  handOver_refused key e := by
    have refused : (c.respond (.handOver key)).1 = .error e ↔ c.handOver key = .error e := by
      rw [respond_handOver]
      cases c.handOver key <;> simp
    simp only [refused, handOver_eq_error_iff, Element.withholds_iff,
      Position.next?_eq_none_iff]
  unchanged call e := allOrNothing_perform call c e

/-! ## What every call keeps -/

/-- Token and expected length stay, and elements are added to those that were there. -/
structure Extends (c c' : Chain) : Prop where
  token : c'.token = c.token
  expectedLength : c'.expectedLength = c.expectedLength
  marks : c.marks <+: c'.marks

theorem Extends.refl (c : Chain) : c.Extends c := ⟨rfl, rfl, List.prefix_rfl⟩

theorem Extends.trans {c d c' : Chain} (first : c.Extends d) (second : d.Extends c') :
    c.Extends c' where
  token := second.token.trans first.token
  expectedLength := second.expectedLength.trans first.expectedLength
  marks := first.marks.trans second.marks

/-- A transfer writes commitments, and a new element. -/
theorem map_mark_extended (token : Token) (id : Position) (key : Key) (elements : List Element) :
    (extended token id key elements).map Element.mark =
      (id, key) :: elements.map Element.mark := by
  cases elements with
  | nil => rfl
  | cons last older => cases older <;> rfl

theorem marks_push (accepted : c.push row = .ok c') : c'.marks = c.marks ++ [row.mark] := by
  rw [marks, elements, (push_eq_ok_iff.mp accepted).2.1]
  simp [marks, elements]

theorem marks_handOver (accepted : c.handOver key = .ok (c', change)) :
    c'.marks = c.marks ++ [(change.id, key)] := by
  obtain ⟨id, _, _, grown, _, rfl⟩ := handOver_eq_ok_iff.mp accepted
  rw [marks, elements, grown, List.map_reverse, map_mark_extended]
  simp [marks, elements]

/-- **No call takes anything back.** -/
theorem extends_respond (c : Chain) (call : Call) : c.Extends (c.respond call).2 := by
  cases call with
  | push row =>
    rw [respond_push]
    cases answer : c.push row with
    | error e => exact .refl c
    | ok c' =>
      obtain ⟨token, _, expectedLength⟩ := push_eq_ok_iff.mp answer
      exact ⟨token, expectedLength, marks_push answer ▸ List.prefix_append _ _⟩
  | handOver key =>
    rw [respond_handOver]
    cases answer : c.handOver key with
    | error e => exact .refl c
    | ok outcome =>
      obtain ⟨id, _, token, _, expectedLength, _⟩ := handOver_eq_ok_iff.mp answer
      exact ⟨token, expectedLength, marks_handOver answer ▸ List.prefix_append _ _⟩

theorem extends_after (c : Chain) (calls : List Call) : c.Extends (c.after calls) := by
  induction calls generalizing c with
  | nil => exact .refl c
  | cons call calls ih => exact (extends_respond c call).trans (ih _)

/-- **A chain only ever grows.**  However a chain came about (`Chain.create`,
`Chain.empty`, `Chain.ofElements` or earlier calls), and whatever calls are made on it,
in any order:

* the ids count on from the first one, and the last one is a word;
* the calls have changed neither the token nor the expected length, nor the id or the
  key of any element that was there;
* a stored element is taken in exactly if there is none yet, or its id follows that of
  the last one; otherwise the answer is the end of all positions if the last one has the
  greatest, and else the expected and the given id;
* a key is refused with the position of the last element exactly if that element
  withholds the token, and else with the end of all positions exactly if it has the
  greatest one;
* a refused call leaves the chain as it was. -/
theorem appendOnly_of_calls (c : Chain) (calls : List Call) :
    (∃ base, base + (c.after calls).length ≤ UInt64.size ∧
        (c.after calls).elements.map (fun e => e.id.toNat) =
          List.range' base (c.after calls).length) ∧
      c.Extends (c.after calls) ∧ (c.after calls).Decides :=
  ⟨exists_base (c.after calls), extends_after c calls, decides (c.after calls)⟩

end Chain

end Provenance
