import Provenance.Digest
import Provenance.Text.Abbreviation
set_option autoImplicit false

/-!
# Tokens

A token names the thing that is owned.  It is the hash of the data it stands for,
but any text can be taken for one as it is: only `Token.parse` looks at it.
Tokens are ordered as their texts are, character by character, which is also the
order of their UTF-8 bytes.
-/

namespace Provenance

/-- The name of a thing that is owned. -/
structure Token where
  text : String
  deriving DecidableEq, Repr, Inhabited

namespace Token

/-- The token of the given data. -/
def ofData (data : List UInt8) : Token :=
  ⟨hashBytes data⟩

/-- Why a text is no token. -/
inductive ParseError where
  /-- The text is not written in hexadecimal digits. -/
  | encoding (error : Hex.DecodeError)
  /-- The text stands for a number of bytes other than 32. -/
  | size (bytes : Nat)
  deriving DecidableEq, Repr, Inhabited

/-- The token that 64 hexadecimal digits stand for, in upper case. -/
def parse (text : String) : Except ParseError Token :=
  match Hex.decode text with
  | .error error => .error (.encoding error)
  | .ok bytes =>
    if bytes.length = 32 then .ok ⟨Hex.encode .upper bytes⟩
    else .error (.size bytes.length)

/-- What is said about the error. -/
def ParseError.message : ParseError → String
  | .encoding error => "invalid hex encoding: " ++ error.message
  | .size bytes => "invalid hex encoding: token must be 32 bytes, got " ++ bytes.repr

/-- The token as messages show it. -/
def label (t : Token) : String :=
  Text.labelled "Token" t.text

/-! ## Order -/

instance : Ord Token := ⟨fun a b => compare a.text b.text⟩

theorem compare_eq (a b : Token) : compare a b = compare a.text b.text := rfl

instance : Std.TransOrd Token where
  eq_swap {a b} := by
    rw [compare_eq a b, compare_eq b a]
    exact Std.OrientedCmp.eq_swap
  isLE_trans {a b c} hab hbc := by
    rw [compare_eq] at hab hbc ⊢
    exact Std.TransCmp.isLE_trans hab hbc

instance : Std.LawfulEqOrd Token where
  eq_of_compare {a b} h := by
    cases a; cases b
    rw [compare_eq] at h
    exact congrArg Token.mk (Std.LawfulEqCmp.eq_of_compare h)

end Token

end Provenance
