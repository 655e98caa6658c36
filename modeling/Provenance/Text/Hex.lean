import Provenance.Text.Utf8
set_option autoImplicit false

/-!
# Text: bytes written as hexadecimal digits

`encode` writes two digits for each byte, the high half first, in upper or in
lower case.  `decode` reads digits of either case.  It works on the UTF-8 bytes
of the text: an odd number of bytes is refused first, and then the first byte
that is no digit.
-/

namespace Provenance.Hex

/-- Which letters stand for the digits above nine. -/
inductive Case where
  | upper
  | lower
  deriving DecidableEq, Repr, Inhabited

/-! ## Writing -/

/-- The digit of a value below 16. -/
def digit (case : Case) (value : UInt8) : Char :=
  if value < 10 then Char.ofUInt8 (48 + value)
  else match case with
    | .upper => Char.ofUInt8 (55 + value)
    | .lower => Char.ofUInt8 (87 + value)

/-- The two digits of a byte. -/
def digits (case : Case) (byte : UInt8) : List Char :=
  [digit case (byte >>> 4), digit case (byte &&& 0x0F)]

/-- The text of a list of bytes. -/
def encode (case : Case) (bytes : List UInt8) : String :=
  String.ofList (bytes.flatMap (digits case))

/-! ## Reading -/

/-- Why a text is no list of bytes. -/
inductive DecodeError where
  /-- The text has an odd number of bytes. -/
  | oddLength
  /-- The byte at this index is no digit. -/
  | invalidDigit (byte : UInt8) (index : Nat)
  deriving DecidableEq, Repr, Inhabited

/-- The value of an ASCII digit. -/
def value? (byte : UInt8) : Option UInt8 :=
  if 48 ≤ byte ∧ byte ≤ 57 then some (byte - 48)
  else if 65 ≤ byte ∧ byte ≤ 70 then some (byte - 55)
  else if 97 ≤ byte ∧ byte ≤ 102 then some (byte - 87)
  else none

/-- The bytes that pairs of digits stand for; `index` is where the first pair
stands in the whole text. -/
def decodePairs (index : Nat) : List UInt8 → Except DecodeError (List UInt8)
  | high :: low :: rest =>
    match value? high with
    | none => .error (.invalidDigit high index)
    | some h =>
      match value? low with
      | none => .error (.invalidDigit low (index + 1))
      | some l => (decodePairs (index + 2) rest).map ((h <<< 4 ||| l) :: ·)
  | _ => .ok []

/-- The bytes that a text of digits stands for. -/
def decode (text : String) : Except DecodeError (List UInt8) :=
  if (Text.utf8 text).length % 2 = 1 then .error .oddLength
  else decodePairs 0 (Text.utf8 text)

/-! ## Messages -/

/-- The character of a byte's value in single quotes.  Control characters, the
no-break space and the soft hyphen are written as escapes, and so are the single
quote and the backslash. -/
def quoted (byte : UInt8) : String :=
  let inner :=
    if byte = 0 then "\\0"
    else if byte = 9 then "\\t"
    else if byte = 10 then "\\n"
    else if byte = 13 then "\\r"
    else if byte = 39 then "\\'"
    else if byte = 92 then "\\\\"
    else if byte < 0x20 ∨ (0x7F ≤ byte ∧ byte ≤ 0xA0) ∨ byte = 0xAD then
      "\\u\x7b" ++ String.ofList (Nat.toDigits 16 byte.toNat) ++ "\x7d"
    else String.singleton (Char.ofUInt8 byte)
  "'" ++ inner ++ "'"

/-- What is said about the error. -/
def DecodeError.message : DecodeError → String
  | .oddLength => "Odd number of digits"
  | .invalidDigit byte index =>
    "Invalid character " ++ quoted byte ++ " at position " ++ index.repr

end Provenance.Hex
