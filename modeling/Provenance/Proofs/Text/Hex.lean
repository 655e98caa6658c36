import Provenance.Digest
set_option autoImplicit false

/-!
# Hexadecimal digits: what was written is read back

`Hex.decode_encode` says that the digits of a list of bytes stand for those bytes,
in either case.  So different bytes are written differently, and two texts have one
hash only if they have one digest (`hash_eq_hash_iff`).
-/

namespace Provenance

namespace Hex

/-! ## One byte -/

/-- The digit of a value below 16 is a single byte that stands for this value. -/
theorem exists_byte_digit (case : Case) {value : UInt8} (small : value < 16) :
    ∃ byte, String.utf8EncodeChar (digit case value) = [byte] ∧ value? byte = some value := by
  have table : ∀ n : Fin 16,
      String.utf8EncodeChar (digit case (.ofNat n)) =
          [(digit case (.ofNat n)).toNat.toUInt8] ∧
        value? (digit case (.ofNat n)).toNat.toUInt8 = some (.ofNat n) := by
    cases case <;> decide
  have known := table ⟨value.toNat, UInt8.lt_iff_toNat_lt.mp small⟩
  rw [UInt8.ofNat_toNat] at known
  exact ⟨_, known⟩

/-- A byte is put together from its two halves. -/
theorem halves (byte : UInt8) :
    byte >>> 4 < 16 ∧ byte &&& 0x0F < 16 ∧ byte >>> 4 <<< 4 ||| byte &&& 0x0F = byte := by
  have table : ∀ n : Fin 256, (.ofNat n : UInt8) >>> 4 < 16 ∧ (.ofNat n : UInt8) &&& 0x0F < 16 ∧
      (.ofNat n : UInt8) >>> 4 <<< 4 ||| (.ofNat n : UInt8) &&& 0x0F = .ofNat n := by
    decide +kernel
  have known := table ⟨byte.toNat, byte.toNat_lt⟩
  rw [UInt8.ofNat_toNat] at known
  exact known

/-! ## All bytes -/

/-- The digits of a list of bytes as they are stored. -/
def stored (case : Case) (bytes : List UInt8) : List UInt8 :=
  bytes.flatMap fun byte => (digits case byte).flatMap String.utf8EncodeChar

theorem utf8_encode (case : Case) (bytes : List UInt8) :
    Text.utf8 (encode case bytes) = stored case bytes := by
  rw [Text.utf8, encode, String.toList_ofList, List.flatMap_assoc]
  rfl

/-- Two stored digits stand for each byte, one for each half of it. -/
theorem exists_stored_cons (case : Case) (byte : UInt8) (bytes : List UInt8) :
    ∃ high low, stored case (byte :: bytes) = high :: low :: stored case bytes ∧
      value? high = some (byte >>> 4) ∧ value? low = some (byte &&& 0x0F) := by
  obtain ⟨smallHigh, smallLow, _⟩ := halves byte
  obtain ⟨high, writtenHigh, readHigh⟩ := exists_byte_digit case smallHigh
  obtain ⟨low, writtenLow, readLow⟩ := exists_byte_digit case smallLow
  refine ⟨high, low, ?_, readHigh, readLow⟩
  simp [stored, digits, writtenHigh, writtenLow]

theorem length_stored (case : Case) (bytes : List UInt8) :
    (stored case bytes).length = 2 * bytes.length := by
  induction bytes with
  | nil => rfl
  | cons byte bytes ih =>
    obtain ⟨high, low, written, _⟩ := exists_stored_cons case byte bytes
    rw [written, List.length_cons, List.length_cons, List.length_cons, ih]
    omega

/-- The text has two bytes for each byte that it stands for. -/
theorem utf8ByteSize_encode (case : Case) (bytes : List UInt8) :
    (encode case bytes).utf8ByteSize = 2 * bytes.length := by
  rw [← Text.length_utf8, utf8_encode, length_stored]

theorem decodePairs_stored (case : Case) (bytes : List UInt8) (index : Nat) :
    decodePairs index (stored case bytes) = .ok bytes := by
  induction bytes generalizing index with
  | nil => rfl
  | cons byte bytes ih =>
    obtain ⟨high, low, written, readHigh, readLow⟩ := exists_stored_cons case byte bytes
    simp only [written, decodePairs, readHigh, readLow, ih, Except.map, (halves byte).2.2]

/-- **What was written is read back**, in upper and in lower case. -/
theorem decode_encode (case : Case) (bytes : List UInt8) :
    decode (encode case bytes) = .ok bytes := by
  rw [decode, utf8_encode, length_stored, if_neg (by omega), decodePairs_stored]

/-- Different bytes are written differently. -/
theorem encode_injective (case : Case) : Function.Injective (encode case) := by
  intro a b same
  have read := congrArg decode same
  rw [decode_encode, decode_encode] at read
  exact Except.ok.inj read

end Hex

/-- A number, a text and a text as they are hashed. -/
theorem Part.joined_number (n : Nat) (s t : String) :
    joined [.integer n, .text s, .text t] = n.repr ++ (s ++ t) := by
  simp only [joined, render, String.append_empty]

/-- All hashes of texts have one size. -/
theorem utf8ByteSize_hash (text : String) : (hash text).utf8ByteSize = 64 := by
  rw [hash, Hex.utf8ByteSize_encode, Vector.length_toList]

/-- **A hash tells its digest**, so texts of one hash have one digest. -/
theorem hash_eq_hash_iff {a b : String} : hash a = hash b ↔ digest a = digest b := by
  constructor
  · intro same
    exact Vector.toList_inj.mp (Hex.encode_injective .upper same)
  · intro same
    rw [hash, hash, same]

end Provenance
