import Provenance.Token
set_option autoImplicit false

/-!
# The order of texts is that of their bytes

Texts are compared character by character, and they are stored in UTF-8.  A greater
character has greater bytes there: the first of them counts the others, and what is left
of the character is written from its highest bits on.  So no two characters have bytes of
which the ones begin the others, and `utf8_lt_of_lt` says that texts that are sorted are
sorted by their bytes.
-/

namespace Provenance

namespace Text

/-- The bytes of a character decide before anything that follows. -/
theorem utf8EncodeChar_append_lt {c d : Char} (before : c < d) (s t : List UInt8) :
    String.utf8EncodeChar c ++ s < String.utf8EncodeChar d ++ t := by
  have order : c.val.toNat < d.val.toNat := UInt32.lt_iff_toNat_lt.mp (Char.lt_def.mp before)
  have bound : d.val.toNat < 0x110000 :=
    d.valid.elim (fun low => Nat.lt_trans low (by decide)) And.right
  unfold String.utf8EncodeChar
  generalize c.val.toNat = m at order ⊢
  generalize d.val.toNat = n at order bound ⊢
  dsimp only
  -- One to four bytes on either side; the first of them decides unless the sizes are equal.
  repeat' split
  all_goals
    simp (disch := omega) only [List.cons_append, List.nil_append, List.cons_lt_cons_iff,
      UInt8.lt_iff_toNat_lt, ← UInt8.toNat_inj, UInt8.toNat_ofNat', Nat.mod_eq_of_lt]
    omega

theorem flatMap_utf8EncodeChar_lt {cs ds : List Char} (before : cs < ds) :
    cs.flatMap String.utf8EncodeChar < ds.flatMap String.utf8EncodeChar := by
  induction before with
  | @nil d ds =>
    obtain ⟨byte, rest, stored⟩ :=
      List.exists_cons_of_ne_nil (String.utf8EncodeChar_ne_nil (c := d))
    rw [List.flatMap_cons, stored]
    exact .nil
  | @rel c cs d ds less => exact utf8EncodeChar_append_lt less _ _
  | @cons c cs ds _ ih =>
    rw [List.flatMap_cons, List.flatMap_cons]
    exact List.append_left_lt ih

/-- **The bytes of a smaller text come first.** -/
theorem utf8_lt_of_lt {s t : String} (before : s < t) : utf8 s < utf8 t :=
  flatMap_utf8EncodeChar_lt (String.lt_iff.mp before)

end Text

/-- A smaller token is one whose text has smaller bytes. -/
theorem Token.utf8_lt_of_compare {a b : Token} (before : compare a b = .lt) :
    Text.utf8 a.text < Text.utf8 b.text :=
  Text.utf8_lt_of_lt (compareOfLessAndEq_eq_lt.mp before)

end Provenance
