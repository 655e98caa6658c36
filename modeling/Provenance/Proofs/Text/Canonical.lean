import Provenance.Proofs.Text.Ambiguity
set_option autoImplicit false

/-!
# Canonical digits: which texts are read, and as what

A text is read if it is made of an even number of hexadecimal digits, and then it is read
as the bytes whose digits in upper case are its own ones in upper case
(`Hex.Written.exists_decode`).  Any other text is refused for one reason: for its size in
bytes, if that is odd, and else for the first character that is no digit
(`Hex.Refused`).  It is bytes that are read, but each digit is a single byte, and any other
character starts with a byte that is no digit.

`Token.parse_canonical` says what follows for tokens: a token has one text only, the one
in upper case, and this text is read as itself.
-/

namespace Provenance

namespace Hex

/-! ## Digits -/

/-- The character is a hexadecimal digit, of either case. -/
def IsDigit (c : Char) : Prop :=
  '0' ≤ c ∧ c ≤ '9' ∨ 'A' ≤ c ∧ c ≤ 'F' ∨ 'a' ≤ c ∧ c ≤ 'f'

instance (c : Char) : Decidable (IsDigit c) :=
  inferInstanceAs (Decidable (_ ∨ _ ∨ _))

variable {c : Char}

/-- What is checked for every character of a single byte holds of them all. -/
theorem ascii_induction {P : Char → Prop} (table : ∀ n : Fin 128, P (.ofNat n))
    (small : c.toNat < 128) : P c := by
  have known := table ⟨c.toNat, small⟩
  rwa [Char.ofNat_toNat] at known

theorem toNat_lt_of_isDigit (digit : IsDigit c) : c.toNat < 128 := by
  have bounds : c ≤ '9' ∨ c ≤ 'F' ∨ c ≤ 'f' := digit.imp And.right (Or.imp And.right And.right)
  rcases bounds with le | le | le <;>
    exact Nat.lt_of_le_of_lt (UInt32.le_iff_toNat_le.mp (Char.le_def.mp le)) (by decide)

/-- A digit is a single byte, and the value of that is written as the digit in upper case. -/
theorem exists_value_of_isDigit (isDigit : IsDigit c) :
    ∃ byte value, String.utf8EncodeChar c = [byte] ∧ value? byte = some value ∧
      value < 16 ∧ digit .upper value = c.toUpper := by
  have found : ∃ v : Fin 16, String.utf8EncodeChar c = [.ofNat c.toNat] ∧
      value? (.ofNat c.toNat) = some (.ofNat v) ∧ digit .upper (.ofNat v) = c.toUpper :=
    ascii_induction (P := fun c => IsDigit c → ∃ v : Fin 16,
        String.utf8EncodeChar c = [.ofNat c.toNat] ∧
          value? (.ofNat c.toNat) = some (.ofNat v) ∧ digit .upper (.ofNat v) = c.toUpper)
      (by decide +kernel) (toNat_lt_of_isDigit isDigit) isDigit
  obtain ⟨v, stored, read, written⟩ := found
  refine ⟨_, _, stored, read, ?_, written⟩
  rw [UInt8.lt_iff_toNat_lt, UInt8.toNat_ofNat']
  exact Nat.lt_of_le_of_lt (Nat.mod_le _ _) v.isLt

/-- The bytes of a character that is no digit start with one that is no digit. -/
theorem exists_byte_of_not_isDigit (other : ¬IsDigit c) :
    ∃ byte rest, String.utf8EncodeChar c = byte :: rest ∧ value? byte = none := by
  have large : ∀ n : Nat, n < 256 → 128 ≤ n → value? (.ofNat n) = none := by
    decide +kernel
  unfold String.utf8EncodeChar
  dsimp only
  split
  case isTrue small =>
    exact ⟨_, _, rfl, ascii_induction (P := fun c => ¬IsDigit c → value? (.ofNat c.toNat) = none)
      (by decide +kernel) (Nat.lt_succ_of_le small) other⟩
  case isFalse =>
    split
    · exact ⟨_, _, rfl, large _ (by omega) (by omega)⟩
    · split
      · exact ⟨_, _, rfl, large _ (by omega) (by omega)⟩
      · exact ⟨_, _, rfl, large _ (by omega) (by omega)⟩

/-- The two halves are told from the byte that they make. -/
theorem halves_of_joined {high low : UInt8} (smallHigh : high < 16) (smallLow : low < 16) :
    (high <<< 4 ||| low) >>> 4 = high ∧ (high <<< 4 ||| low) &&& 0x0F = low := by
  have table : ∀ h l : Fin 16,
      ((.ofNat h : UInt8) <<< 4 ||| .ofNat l) >>> 4 = .ofNat h ∧
        ((.ofNat h : UInt8) <<< 4 ||| .ofNat l) &&& 0x0F = .ofNat l := by
    decide +kernel
  have known := table ⟨high.toNat, UInt8.lt_iff_toNat_lt.mp smallHigh⟩
    ⟨low.toNat, UInt8.lt_iff_toNat_lt.mp smallLow⟩
  rwa [UInt8.ofNat_toNat, UInt8.ofNat_toNat] at known

/-! ## Pairs of digits -/

/-- Digits are one byte each. -/
theorem length_flatMap_of_digits {chars : List Char} (valid : ∀ c ∈ chars, IsDigit c) :
    (chars.flatMap String.utf8EncodeChar).length = chars.length := by
  induction chars with
  | nil => rfl
  | cons c chars ih =>
    obtain ⟨hc, hchars⟩ := List.forall_mem_cons.mp valid
    obtain ⟨byte, _, stored, _⟩ := exists_value_of_isDigit hc
    rw [List.flatMap_cons, List.length_append, ih hchars, stored, List.length_singleton,
      List.length_cons, Nat.add_comm]

/-- Pairs of digits are read as bytes with the same digits, in upper case. -/
theorem exists_decodePairs_of_digits {chars : List Char} (index : Nat)
    (valid : ∀ c ∈ chars, IsDigit c) (even : chars.length % 2 = 0) :
    ∃ bytes, decodePairs index (chars.flatMap String.utf8EncodeChar) = .ok bytes ∧
      bytes.flatMap (digits .upper) = chars.map Char.toUpper := by
  match chars with
  | [] => exact ⟨[], rfl, rfl⟩
  | [_] => cases even
  | first :: second :: rest =>
    rw [List.forall_mem_cons, List.forall_mem_cons] at valid
    obtain ⟨validFirst, validSecond, validRest⟩ := valid
    rw [List.length_cons, List.length_cons, Nat.add_assoc, Nat.add_mod_right] at even
    obtain ⟨high, h, storedHigh, readHigh, smallHigh, upperHigh⟩ :=
      exists_value_of_isDigit validFirst
    obtain ⟨low, l, storedLow, readLow, smallLow, upperLow⟩ :=
      exists_value_of_isDigit validSecond
    obtain ⟨bytes, readRest, upperRest⟩ := exists_decodePairs_of_digits (index + 2) validRest even
    obtain ⟨upper, lower⟩ := halves_of_joined smallHigh smallLow
    refine ⟨(h <<< 4 ||| l) :: bytes, ?_, ?_⟩
    · simp only [List.flatMap_cons, storedHigh, storedLow, List.cons_append, List.nil_append,
        decodePairs, readHigh, readLow, readRest, Except.map]
    · simp only [List.flatMap_cons, digits, upper, lower, upperHigh, upperLow, upperRest,
        List.map_cons, List.cons_append, List.nil_append]

/-- The first byte that is no digit is reported, with the number of digits before it. -/
theorem decodePairs_of_not_isDigit {before after : List Char} {byte : UInt8} {rest : List UInt8}
    (index : Nat) (valid : ∀ d ∈ before, IsDigit d)
    (stored : String.utf8EncodeChar c = byte :: rest) (unread : value? byte = none)
    (even : ((before ++ c :: after).flatMap String.utf8EncodeChar).length % 2 = 0) :
    decodePairs index ((before ++ c :: after).flatMap String.utf8EncodeChar) =
      .error (.invalidDigit byte (index + before.length)) := by
  match before with
  | [] =>
    rw [List.nil_append, List.flatMap_cons, stored, List.cons_append] at even ⊢
    -- The size is even, so there is one byte more to make a pair.
    cases tail : rest ++ after.flatMap String.utf8EncodeChar with
    | nil =>
      rw [tail] at even
      cases even
    | cons low rest =>
      simp only [decodePairs, unread, List.length_nil, Nat.add_zero]
  | [d] =>
    obtain ⟨high, h, storedHigh, readHigh, _⟩ :=
      exists_value_of_isDigit (valid d (List.mem_singleton_self d))
    simp only [List.cons_append, List.nil_append, List.flatMap_cons, storedHigh, stored,
      decodePairs, readHigh, unread, List.length_singleton]
  | first :: second :: before =>
    rw [List.forall_mem_cons, List.forall_mem_cons] at valid
    obtain ⟨validFirst, validSecond, validRest⟩ := valid
    obtain ⟨high, h, storedHigh, readHigh, _⟩ := exists_value_of_isDigit validFirst
    obtain ⟨low, l, storedLow, readLow, _⟩ := exists_value_of_isDigit validSecond
    rw [List.cons_append, List.cons_append, List.flatMap_cons, List.flatMap_cons, storedHigh,
      storedLow, List.singleton_append, List.singleton_append] at even ⊢
    rw [List.length_cons, List.length_cons, Nat.add_assoc, Nat.add_mod_right] at even
    have later := decodePairs_of_not_isDigit (index + 2) validRest stored unread even
    simp only [decodePairs, readHigh, readLow, later, Except.map, List.length_cons]
    rw [Nat.add_right_comm index, Nat.add_assoc]

/-! ## Whole texts -/

/-- The text is made of pairs of digits. -/
structure Written (text : String) : Prop where
  valid : ∀ c ∈ text.toList, IsDigit c
  even : text.length % 2 = 0

/-- Why a text is refused, and the error it is refused with. -/
inductive Refused (text : String) : DecodeError → Prop
  /-- It has an odd number of bytes. -/
  | oddLength (odd : text.utf8ByteSize % 2 = 1) : Refused text .oddLength
  /-- It has an even number of them, and the first character after some digits is none. -/
  | invalidDigit {before after : List Char} {c : Char} {byte : UInt8} {rest : List UInt8}
      (even : text.utf8ByteSize % 2 = 0) (whole : text.toList = before ++ c :: after)
      (valid : ∀ d ∈ before, IsDigit d) (other : ¬IsDigit c)
      (stored : String.utf8EncodeChar c = byte :: rest) :
      Refused text (.invalidDigit byte before.length)

variable {text : String}

theorem Written.utf8ByteSize_eq (written : Written text) : text.utf8ByteSize = text.length := by
  rw [← Text.length_utf8, Text.utf8, length_flatMap_of_digits written.valid, String.length_toList]

/-- **What is written in digits is read** as the bytes that have these digits in upper
case. -/
theorem Written.exists_decode (written : Written text) :
    ∃ bytes, decode text = .ok bytes ∧ encode .upper bytes = text.toUpper := by
  have even := written.even
  rw [← String.length_toList] at even
  obtain ⟨bytes, read, upper⟩ := exists_decodePairs_of_digits 0 written.valid even
  refine ⟨bytes, ?_, ?_⟩
  · rw [decode, Text.length_utf8, written.utf8ByteSize_eq, written.even, if_neg (by decide)]
    exact read
  · rw [encode, upper, String.toUpper, ← String.toList_map, String.ofList_toList]

theorem Refused.decode_eq {error : DecodeError} (refused : Refused text error) :
    decode text = .error error := by
  rw [decode, Text.length_utf8]
  cases refused with
  | oddLength odd => rw [if_pos odd]
  | @invalidDigit before after c byte rest even whole valid other stored =>
    rw [if_neg (by omega), Text.utf8, whole]
    obtain ⟨first, others, stored', unread⟩ := exists_byte_of_not_isDigit other
    obtain ⟨rfl, rfl⟩ := List.cons.inj (stored.symm.trans stored')
    have size : ((before ++ c :: after).flatMap String.utf8EncodeChar).length % 2 = 0 := by
      rw [← whole, ← even, ← Text.length_utf8, Text.utf8]
    rw [decodePairs_of_not_isDigit 0 valid stored unread size, Nat.zero_add]

/-- Every text is written in digits, or refused for a reason. -/
theorem written_or_refused (text : String) : Written text ∨ ∃ error, Refused text error := by
  by_cases odd : text.utf8ByteSize % 2 = 1
  · exact .inr ⟨_, .oddLength odd⟩
  have even : text.utf8ByteSize % 2 = 0 := by omega
  cases first : text.toList.find? fun c => ¬IsDigit c with
  | none =>
    have valid : ∀ c ∈ text.toList, IsDigit c := by simpa using first
    refine .inl ⟨valid, ?_⟩
    rwa [← Text.length_utf8, Text.utf8, length_flatMap_of_digits valid, String.length_toList]
      at even
  | some c =>
    obtain ⟨other, before, after, whole, valid⟩ := List.find?_eq_some_iff_append.mp first
    obtain ⟨byte, rest, stored, _⟩ := exists_byte_of_not_isDigit (of_decide_eq_true other)
    exact .inr ⟨_, .invalidDigit even whole (by simpa using valid) (of_decide_eq_true other) stored⟩

/-- The bytes that a text is read as have its own digits, in upper case. -/
theorem encode_of_decode {bytes : List UInt8} (read : decode text = .ok bytes) :
    encode .upper bytes = text.toUpper := by
  rcases written_or_refused text with written | ⟨error, refused⟩
  · obtain ⟨bytes', read', upper⟩ := written.exists_decode
    obtain rfl := Except.ok.inj (read.symm.trans read')
    exact upper
  · cases read.symm.trans refused.decode_eq

theorem length_encode (case : Case) (bytes : List UInt8) :
    (encode case bytes).length = 2 * bytes.length := by
  simp only [encode, String.length_ofList, List.length_flatMap, digits, List.length_cons,
    List.length_nil, List.map_const', List.sum_replicate_nat, Nat.mul_comm]

/-- A text that is read has two digits for each of its bytes. -/
theorem length_of_decode {bytes : List UInt8} (read : decode text = .ok bytes) :
    text.length = 2 * bytes.length := by
  have upper := congrArg String.length (encode_of_decode read)
  rwa [String.toUpper, String.length_map, length_encode, eq_comm] at upper

end Hex

/-! ## Tokens -/

namespace Token

/-- Why a text is no token, and the error it is refused with. -/
inductive Refused (text : String) : ParseError → Prop
  /-- It is not written in pairs of digits. -/
  | encoding {error : Hex.DecodeError} (refused : Hex.Refused text error) :
      Refused text (.encoding error)
  /-- It is, but it has not 64 digits. -/
  | size (written : Hex.Written text) (other : text.length ≠ 64) :
      Refused text (.size (text.length / 2))

variable {text : String} {token : Token}

/-- A text of digits is a token if it has 64 of them. -/
theorem parse_of_written (written : Hex.Written text) :
    parse text =
      if text.length = 64 then .ok ⟨text.toUpper⟩ else .error (.size (text.length / 2)) := by
  obtain ⟨bytes, read, upper⟩ := written.exists_decode
  have size := Hex.length_of_decode read
  have half : text.length / 2 = bytes.length := by omega
  have full : bytes.length = 32 ↔ text.length = 64 := by omega
  simp only [parse, read, upper, half, full]

theorem Refused.parse_eq {error : ParseError} (refused : Refused text error) :
    parse text = .error error := by
  cases refused with
  | encoding refused => rw [parse, refused.decode_eq]
  | size written other => rw [parse_of_written written, if_neg other]

/-- A text of 64 digits is the token of these digits in upper case, and any other text is
refused. -/
theorem parsed_or_refused (text : String) :
    (text.length = 64 ∧ (∀ c ∈ text.toList, Hex.IsDigit c) ∧ parse text = .ok ⟨text.toUpper⟩) ∨
      ∃ error, Refused text error := by
  rcases Hex.written_or_refused text with written | ⟨error, refused⟩
  · by_cases full : text.length = 64
    · refine .inl ⟨full, written.valid, ?_⟩
      rw [parse_of_written written, if_pos full]
    · exact .inr ⟨_, .size written full⟩
  · exact .inr ⟨_, .encoding refused⟩

theorem parse_eq_ok_iff :
    parse text = .ok token ↔
      text.length = 64 ∧ (∀ c ∈ text.toList, Hex.IsDigit c) ∧ token.text = text.toUpper := by
  constructor
  · intro parsed
    rcases parsed_or_refused text with ⟨full, valid, parsed'⟩ | ⟨error, refused⟩
    · obtain rfl := Except.ok.inj (parsed.symm.trans parsed')
      exact ⟨full, valid, rfl⟩
    · cases parsed.symm.trans refused.parse_eq
  · rintro ⟨full, valid, upper⟩
    have written : Hex.Written text := ⟨valid, by rw [full]⟩
    rw [parse_of_written written, if_pos full, ← upper]

theorem parse_eq_error_iff {error : ParseError} :
    parse text = .error error ↔ Refused text error := by
  refine ⟨fun failed => ?_, Refused.parse_eq⟩
  rcases parsed_or_refused text with ⟨_, _, parsed⟩ | ⟨error', refused⟩
  · cases failed.symm.trans parsed
  · obtain rfl := Except.error.inj (failed.symm.trans refused.parse_eq)
    exact refused

/-- The text of a token that was read is read as this token. -/
theorem parse_text_of_parse (parsed : parse text = .ok token) : parse token.text = .ok token := by
  unfold parse at parsed
  split at parsed
  · cases parsed
  · split at parsed
    case isTrue size =>
      obtain rfl := Except.ok.inj parsed
      exact parse_encode .upper size
    case isFalse => cases parsed

/-- **A token has one text.**  For every text, of whatever characters:

* it is read as a token exactly if it is made of 64 hexadecimal digits, and then as the
  token whose text it is in upper case;
* each other text is refused: for an odd number of bytes before anything else, then for the
  first character that is no digit, whose first byte is named with the number of digits
  before it, and only if it is made of pairs of digits for its size, and then half the
  number of digits is named;
* the text of a token that was read is read as this token, and so is the text of the token
  of any data;
* two texts are read as one token exactly if they are equal but for the case of letters;
* the digits of any bytes, in either case, are read as these bytes, and the digits in upper
  case of the bytes that a text is read as are this text in upper case. -/
theorem parse_canonical (text : String) :
    (∀ token, parse text = .ok token ↔
      text.length = 64 ∧ (∀ c ∈ text.toList, Hex.IsDigit c) ∧ token.text = text.toUpper) ∧
    (∀ error, parse text = .error error ↔ Refused text error) ∧
    (∀ token, parse text = .ok token → parse token.text = .ok token) ∧
    (∀ data, parse (ofData data).text = .ok (ofData data)) ∧
    (∀ other token token', parse text = .ok token → parse other = .ok token' →
      (token = token' ↔ text.toUpper = other.toUpper)) ∧
    (∀ case bytes, Hex.decode (Hex.encode case bytes) = .ok bytes) ∧
    ∀ bytes, Hex.decode text = .ok bytes → Hex.encode .upper bytes = text.toUpper := by
  refine ⟨fun _ => parse_eq_ok_iff, fun _ => parse_eq_error_iff, fun _ => parse_text_of_parse,
    fun data => ?_, fun other token token' parsed parsed' => ?_, Hex.decode_encode,
    fun _ => Hex.encode_of_decode⟩
  · exact parse_encode .upper Vector.length_toList
  · rw [← (parse_eq_ok_iff.mp parsed).2.2, ← (parse_eq_ok_iff.mp parsed').2.2]
    exact text_injective.eq_iff.symm

end Token

end Provenance
