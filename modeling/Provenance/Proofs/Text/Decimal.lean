import Provenance.Key
set_option autoImplicit false

/-!
# Decimal digits in front of a text

What is hashed for a key starts with the decimal digits of a position, and nothing
stands between them and the token.  Digits and what follows them can run into each
other, so not every such text tells its position.  But neighbouring positions are
always told apart: the digits of a number are no beginning of those of the next one
(`not_isPrefix_succ`), so the texts for two neighbours differ whatever follows
(`Key.source_ne_of_succ`).  And any positions are told apart where what follows has as
many bytes in both texts (`repr_append_inj`).
-/

namespace Provenance

namespace Decimal

/-- A greater number has no fewer digits. -/
theorem length_toDigits_le {m n : Nat} (le : m ≤ n) :
    (Nat.toDigits 10 m).length ≤ (Nat.toDigits 10 n).length := by
  have bound : n < 10 ^ (Nat.toDigits 10 n).length :=
    (Nat.length_toDigits_le_iff (by decide) Nat.length_toDigits_pos).mp (Nat.le_refl _)
  exact (Nat.length_toDigits_le_iff (by decide) Nat.length_toDigits_pos).mpr
    (Nat.lt_of_le_of_lt le bound)

/-- The digits of a number are no beginning of the digits of the next one. -/
theorem not_isPrefix_succ (n : Nat) : ¬Nat.toDigits 10 n <+: Nat.toDigits 10 (n + 1) := by
  intro ⟨rest, whole⟩
  have value := congrArg (Nat.ofDigitChars 10 · 0) whole
  simp only [Nat.ofDigitChars_append, Nat.ofDigitChars_ten_toDigits] at value
  cases rest with
  | nil => simp at value
  | cons digit rest =>
    -- One digit more makes a number ten times as great, so there is room for zero only.
    rw [Nat.ofDigitChars_eq_ofDigitChars_zero, List.length_cons, Nat.pow_succ] at value
    have positive : 0 < 10 ^ rest.length := Nat.pow_pos (by decide)
    have large : 10 * n ≤ 10 ^ rest.length * 10 * n := by
      rw [Nat.mul_assoc]
      exact Nat.le_mul_of_pos_left _ positive
    obtain rfl : n = 0 := by omega
    simp [Nat.toDigits_of_lt_base] at whole

/-- Texts that start with neighbouring numbers differ, whatever follows. -/
theorem repr_append_ne_succ (n : Nat) (s t : String) : n.repr ++ s ≠ (n + 1).repr ++ t := by
  intro same
  have digits := congrArg String.toList same
  rw [String.toList_append, String.toList_append, Nat.toList_repr, Nat.toList_repr] at digits
  have beginning : Nat.toDigits 10 n <+: Nat.toDigits 10 (n + 1) ++ t.toList := by
    rw [← digits]
    exact List.prefix_append _ _
  exact not_isPrefix_succ n (List.prefix_of_prefix_length_le beginning
    (List.prefix_append _ _) (length_toDigits_le (Nat.le_succ n)))

/-- Numbers are told apart by their digits. -/
theorem repr_injective : Function.Injective Nat.repr := by
  intro a b same
  have digits := congrArg String.toList same
  rw [Nat.toList_repr, Nat.toList_repr] at digits
  have values := congrArg (Nat.ofDigitChars 10 · 0) digits
  simpa only [Nat.ofDigitChars_ten_toDigits] using values

/-- Where what follows has a known number of bytes, it is told from the digits. -/
theorem repr_append_inj {a b : Nat} {s t : String} (same : a.repr ++ s = b.repr ++ t)
    (size : s.utf8ByteSize = t.utf8ByteSize) : a = b ∧ s = t := by
  have bytes := congrArg Text.utf8 same
  rw [Text.utf8_append, Text.utf8_append] at bytes
  rw [← Text.length_utf8, ← Text.length_utf8] at size
  obtain ⟨numbers, texts⟩ := List.append_inj' bytes size
  exact ⟨repr_injective (Text.utf8_injective numbers), Text.utf8_injective texts⟩

end Decimal

/-- **Keys of neighbouring positions come from different texts**, whatever the
passphrases are. -/
theorem Key.source_ne_of_succ {earlier later : Position} (next : later.toNat = earlier.toNat + 1)
    (token : Token) (passphrase passphrase' : String) :
    source earlier token passphrase ≠ source later token passphrase' := by
  unfold source
  rw [next]
  exact Decimal.repr_append_ne_succ _ _ _

end Provenance
