set_option autoImplicit false

/-!
# Keccak: the permutation of the 1600-bit state

A state is 25 lanes of 64 bits, lane `(x, y)` standing at index `x + 5 * y`.
Each of the 24 rounds mixes the columns (`theta`), rotates the lanes and moves
them about (`rhoPi`), combines each row non-linearly (`chi`) and adds a round
constant to the first lane.  Every step is written lane by lane, as the value
that the new lane `(x, y)` takes.
-/

namespace Provenance.Keccak

/-- The 25 lanes of a state. -/
abbrev State := Vector UInt64 25

namespace State

/-- The lane in column `x` and row `y`. -/
def lane (s : State) (x y : Fin 5) : UInt64 :=
  s[x.val + 5 * y.val]

/-- The state whose lane `(x, y)` is `f x y`. -/
def ofLanes (f : Fin 5 → Fin 5 → UInt64) : State :=
  Vector.ofFn fun i : Fin 25 =>
    f ⟨i.val % 5, Nat.mod_lt _ (by decide)⟩
      ⟨i.val / 5, Nat.div_lt_of_lt_mul i.isLt⟩

/-- The state of zero lanes. -/
def zero : State := Vector.replicate 25 0

end State

/-- The word `w` turned left by `n` bits. -/
def rotateLeft (w n : UInt64) : UInt64 :=
  (w <<< n) ||| (w >>> (64 - n))

/-- By how many bits each lane is turned, in the order of the lanes. -/
def rotationOffsets : Vector UInt64 25 :=
  #v[0, 1, 62, 28, 27,
     36, 44, 6, 55, 20,
     3, 10, 43, 25, 39,
     41, 45, 15, 21, 8,
     18, 2, 61, 56, 14]

/-- The constant that each round adds to the first lane. -/
def roundConstants : List UInt64 :=
  [0x0000000000000001, 0x0000000000008082, 0x800000000000808A, 0x8000000080008000,
   0x000000000000808B, 0x0000000080000001, 0x8000000080008081, 0x8000000000008009,
   0x000000000000008A, 0x0000000000000088, 0x0000000080008009, 0x000000008000000A,
   0x000000008000808B, 0x800000000000008B, 0x8000000000008089, 0x8000000000008003,
   0x8000000000008002, 0x8000000000000080, 0x000000000000800A, 0x800000008000000A,
   0x8000000080008081, 0x8000000000008080, 0x0000000080000001, 0x8000000080008008]

/-! ## One round -/

/-- The exclusive or of the five lanes of each column. -/
def parities (s : State) : Vector UInt64 5 :=
  Vector.ofFn fun x =>
    s.lane x 0 ^^^ s.lane x 1 ^^^ s.lane x 2 ^^^ s.lane x 3 ^^^ s.lane x 4

/-- Adds to each lane the parities of the two columns beside it, the right one
turned by one bit. -/
def theta (s : State) : State :=
  let parity := parities s
  State.ofLanes fun x y =>
    s.lane x y ^^^ (parity[(x + 4).val] ^^^ rotateLeft parity[(x + 1).val] 1)

/-- Turns each lane by its own offset and moves lane `(x, y)` to `(y, 2x + 3y)`;
read from the target, lane `(x, y)` comes from `(x + 3y, x)`. -/
def rhoPi (s : State) : State :=
  State.ofLanes fun x y =>
    rotateLeft (s.lane (x + 3 * y) x) (State.lane rotationOffsets (x + 3 * y) x)

/-- Adds to each lane the one two columns on where the one beside it is zero. -/
def chi (s : State) : State :=
  State.ofLanes fun x y =>
    s.lane x y ^^^ (~~~(s.lane (x + 1) y) &&& s.lane (x + 2) y)

/-- Adds the round constant to the first lane. -/
def iota (constant : UInt64) (s : State) : State :=
  s.set 0 (s[0] ^^^ constant)

/-- One round. -/
def round (s : State) (constant : UInt64) : State :=
  iota constant (chi (rhoPi (theta s)))

/-- All 24 rounds. -/
def permute (s : State) : State :=
  roundConstants.foldl round s

end Provenance.Keccak
