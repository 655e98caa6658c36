import Provenance.Keccak.Permutation
set_option autoImplicit false

/-!
# Keccak: SHA3-256

The sponge of SHA3-256 takes a message in blocks of 136 bytes.  A message is
first padded to whole blocks (`pad`), each block is added to the state and the
state permuted (`absorb`), and the digest is the first 32 bytes of the state at
the end.  That a digest has 32 bytes is part of its type.
-/

namespace Provenance.Keccak

/-- The number of bytes that one block carries. -/
def blockSize : Nat := 136

/-- What follows a message of the given length: a byte `06`, zeros and a final
byte `80`, up to a whole number of blocks.  Where one byte is missing, both marks
share it. -/
def padding (length : Nat) : List UInt8 :=
  let missing := blockSize - length % blockSize
  if missing = 1 then [0x86]
  else 0x06 :: (List.replicate (missing - 2) 0 ++ [0x80])

/-- The message with its padding. -/
def pad (message : List UInt8) : List UInt8 :=
  message ++ padding message.length

/-- The word whose bytes are given, the lowest first. -/
def wordOfBytes (bytes : List UInt8) : UInt64 :=
  bytes.foldr (fun byte word => (word <<< 8) ||| byte.toUInt64) 0

/-- The state with the words of a block added to its first lanes. -/
def addBlock (s : State) (block : List UInt8) : State :=
  Vector.ofFn fun i : Fin 25 => s[i] ^^^ wordOfBytes ((block.drop (8 * i.val)).take 8)

/-- The state after that many blocks have been taken in. -/
def absorb : Nat → List UInt8 → State → State
  | 0, _, s => s
  | blocks + 1, bytes, s =>
      absorb blocks (bytes.drop blockSize) (permute (addBlock s (bytes.take blockSize)))

/-- The first 32 bytes of a state, the lowest byte of each lane first. -/
def squeeze (s : State) : Vector UInt8 32 :=
  Vector.ofFn fun i : Fin 32 =>
    (s[i.val / 8] >>> (8 * (i.val % 8)).toUInt64).toUInt8

/-- The SHA3-256 digest of a message. -/
def sha3_256 (message : List UInt8) : Vector UInt8 32 :=
  let padded := pad message
  squeeze (absorb (padded.length / blockSize) padded State.zero)

end Provenance.Keccak
