import Provenance.Chain.Basic
import Provenance.Proofs.Procedure
set_option autoImplicit false

/-!
# A chain that grows in place

Pushing an element and handing a chain over change the chain write by write.  Both check
before they write (`allOrNothing_push`, `allOrNothing_handOver`), so a refused call leaves
no trace.  The chain that an accepted one leaves is told at once by `push_cons` and
`handOver_cons`: its elements with all of the writes done.
-/

namespace Provenance.Chain

variable {token : Token} {last row : Element} {older : List Element} {expectedLength : UInt64}
  {key : Key}

/-- Writes the owner of the newest element, if there is one: it confirms
`generator`, which is about to be written one element further on. -/
def confirm (generator : Generator) : List Element → List Element
  | [] => []
  | e :: older => { e with owner := some (.derive generator) } :: older

/-- Confirming changes no id. -/
@[simp] theorem map_id_confirm (generator : Generator) (older : List Element) :
    (confirm generator older).map Element.id = older.map Element.id := by
  cases older <;> rfl

/-! ## Checks before writes -/

open Procedure

theorem allOrNothing_push (row : Element) : (InPlace.push row).AllOrNothing := by
  refine .after_readsOnly (fun c => ?_) (readsOnly_read _)
  split
  case h_1 => exact (neverFails_write _).allOrNothing
  case h_2 last _ =>
    split
    case h_1 => exact (readsOnly_read _).allOrNothing
    case h_2 expected _ =>
      exact .after_readsOnly (fun _ => (neverFails_write _).allOrNothing) (readsOnly_check _ _)

theorem allOrNothing_handOver (key : Key) : (InPlace.handOver key).AllOrNothing := by
  refine .after_readsOnly (fun c => ?_) (readsOnly_read _)
  split
  case h_1 => exact ((neverFails_write _).bind fun _ => neverFails_pure _).allOrNothing
  case h_2 last _ =>
    refine .after_readsOnly (fun _ => ?_) (readsOnly_check _ _)
    split
    case h_1 => exact (readsOnly_read _).allOrNothing
    case h_2 id _ =>
      -- The owner, the generator and the new element: from here on nothing is refused.
      exact ((neverFails_write _).bind fun _ => (neverFails_write _).bind fun _ =>
        (neverFails_write _).bind fun _ => neverFails_pure _).allOrNothing

/-- A transfer that is accepted leaves the chain after it. -/
theorem run_handOver_of_ok {c c' : Chain} {change : Change}
    (accepted : c.handOver key = .ok (c', change)) :
    ((InPlace.handOver key).run c).1.result = .ok change ∧
      ((InPlace.handOver key).run c).2 = c' := by
  refine run_of_ok ?_
  unfold handOver at accepted
  cases result : ((InPlace.handOver key).outcome c).result with
  | error e =>
    rw [result] at accepted
    cases accepted
  | ok outcome =>
    rw [result] at accepted
    cases accepted
    rfl

/-- A transfer that is refused leaves the chain as it was. -/
theorem run_handOver_of_error {c : Chain} {e : ChainError} (refused : c.handOver key = .error e) :
    ((InPlace.handOver key).run c).1.result = .error e ∧
      ((InPlace.handOver key).run c).2 = c := by
  refine (allOrNothing_handOver key).run_of_error ?_
  unfold handOver at refused
  cases result : ((InPlace.handOver key).outcome c).result with
  | error e' =>
    rw [result] at refused
    cases refused
    rfl
  | ok outcome =>
    rw [result] at refused
    cases refused

/-! ## All writes at once -/

section

variable (contiguous : Contiguous ((last :: older).map Element.id))

theorem push_nil (contiguous : Contiguous []) (row : Element) :
    push row ⟨token, [], expectedLength, contiguous⟩ =
      .ok ⟨token, [row], expectedLength, trivial⟩ := rfl

theorem push_of_next (next : last.id.next? = some row.id) :
    push row ⟨token, last :: older, expectedLength, contiguous⟩ =
      .ok ⟨token, row :: last :: older, expectedLength, next, contiguous⟩ := by
  simp [push, InPlace.push, last?, append, next, Except.map]

theorem push_of_other {expected : Position} (next : last.id.next? = some expected)
    (other : row.id ≠ expected) :
    push row ⟨token, last :: older, expectedLength, contiguous⟩ =
      .error (.outOfOrder expected row.id) := by
  simp [push, InPlace.push, last?, next, other, Except.map]

theorem push_of_end (ends : last.id.next? = none) :
    push row ⟨token, last :: older, expectedLength, contiguous⟩ =
      .error .positionsExhausted := by
  simp [push, InPlace.push, last?, ends, Except.map]

theorem handOver_nil (contiguous : Contiguous []) (key : Key) :
    handOver key ⟨token, [], expectedLength, contiguous⟩ =
      .ok (⟨token, [.unlinked 0 key], expectedLength, trivial⟩, .first 0) := rfl

theorem handOver_of_refused (refused : last.key = key ∨ last.isBound = true) :
    handOver key ⟨token, last :: older, expectedLength, contiguous⟩ =
      .error (.alreadyBound last.id) := by
  have bound : ¬(last.key ≠ key ∧ last.isBound = false) := by
    rw [not_and, Bool.not_eq_false]
    exact refused.resolve_left
  simp [handOver, InPlace.handOver, last?, bound, Except.map]

theorem handOver_of_end (free : ¬(last.key = key ∨ last.isBound = true))
    (ends : last.id.next? = none) :
    handOver key ⟨token, last :: older, expectedLength, contiguous⟩ =
      .error .positionsExhausted := by
  rw [not_or, Bool.not_eq_true] at free
  simp [handOver, InPlace.handOver, last?, free, ends, Except.map]

/-- The three writes of a transfer that is not refused. -/
theorem handOver_of_next {id : Position} (free : ¬(last.key = key ∨ last.isBound = true))
    (next : last.id.next? = some id) :
    let generator := Generator.derive id token key
    handOver key ⟨token, last :: older, expectedLength, contiguous⟩ =
      .ok (⟨token, .unlinked id key :: { last with generator := some generator } ::
          confirm generator older, expectedLength, next, by simpa using contiguous⟩,
        { id
          generator := some generator
          generatorId := last.id
          owner := older.head?.map fun _ => .derive generator
          ownerId := (older.head?.map Element.id).getD 0 }) := by
  intro generator
  rw [not_or, Bool.not_eq_true] at free
  cases older <;>
    simp [handOver, InPlace.handOver, last?, free, next, modify, append, confirm, generator,
      Element.unlinked, Except.map]

end

end Provenance.Chain
