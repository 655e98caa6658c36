set_option autoImplicit false

/-!
# Positions

The elements of an ownership history are numbered by 64-bit words.  The position
after another one is partial: nothing comes after the greatest word.
-/

namespace Provenance

/-- The number of an element in an ownership history. -/
abbrev Position := UInt64

namespace Position

/-- The greatest position. -/
def greatest : Position := 0xFFFFFFFFFFFFFFFF

/-- The position after `p`, if there is one. -/
def next? (p : Position) : Option Position :=
  if p = greatest then none else some (p + 1)

/-- The position after another one is greater by one, with no wrapping around. -/
theorem next?_eq_some_iff {p q : Position} :
    next? p = some q ↔ q.toNat = p.toNat + 1 := by
  have bound : p.toNat < 2 ^ 64 := p.toNat_lt
  unfold next?
  by_cases last : p = greatest
  · subst last
    have : q.toNat < 2 ^ 64 := q.toNat_lt
    have value : greatest.toNat = 2 ^ 64 - 1 := rfl
    simp only [if_true, reduceCtorEq, false_iff]
    omega
  · have below : p.toNat ≠ 2 ^ 64 - 1 := fun h => last (UInt64.toNat_inj.mp h)
    simp only [last, if_false, Option.some.injEq, ← UInt64.toNat_inj, UInt64.toNat_add]
    have one : (1 : UInt64).toNat = 1 := rfl
    omega

/-- Only the greatest position has none after it. -/
theorem next?_eq_none_iff {p : Position} : next? p = none ↔ p = greatest := by
  simp [next?]

/-- All positions but the greatest are below it. -/
theorem lt_greatest_iff {p : Position} : p < greatest ↔ p ≠ greatest := by
  have bound : p.toNat < 2 ^ 64 := p.toNat_lt
  have value : greatest.toNat = 2 ^ 64 - 1 := rfl
  rw [UInt64.lt_iff_toNat_lt, ne_eq, ← UInt64.toNat_inj]
  omega

/-- A position is before the one after it. -/
theorem lt_of_next? {p q : Position} (h : next? p = some q) : p < q := by
  rw [UInt64.lt_iff_toNat_lt, next?_eq_some_iff.mp h]
  exact Nat.lt_succ_self _

end Position

end Provenance
