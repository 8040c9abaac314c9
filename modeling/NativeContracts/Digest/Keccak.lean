import NativeContracts.Digest.Blocks

-- Keccak-256: a sponge over 25 lanes of 64 bits that absorbs 136 bytes at a time. The message is
-- padded with a bare one bit, not with the domain bits of the later standard.

namespace NativeContracts.Keccak

open Digest

-- Lane (x, y) stands at index x + 5 y.
abbrev State := Vector UInt64 25

def lane (s : State) (x y : Nat) : UInt64 := s.getD (x % 5 + 5 * (y % 5)) 0

def roundConstants : List UInt64 :=
  [0x0000000000000001, 0x0000000000008082, 0x800000000000808a, 0x8000000080008000,
   0x000000000000808b, 0x0000000080000001, 0x8000000080008081, 0x8000000000008009,
   0x000000000000008a, 0x0000000000000088, 0x0000000080008009, 0x000000008000000a,
   0x000000008000808b, 0x800000000000008b, 0x8000000000008089, 0x8000000000008003,
   0x8000000000008002, 0x8000000000000080, 0x000000000000800a, 0x800000008000000a,
   0x8000000080008081, 0x8000000000008080, 0x0000000080000001, 0x8000000080008008]

-- How far each lane is rotated, by index.
def rotations : Array UInt64 :=
  #[0, 1, 62, 28, 27,
   36, 44, 6, 55, 20,
   3, 10, 43, 25, 39,
   41, 45, 15, 21, 8,
   18, 2, 61, 56, 14]

-- The parity of column x.
def column (s : State) (x : Nat) : UInt64 :=
  lane s x 0 ^^^ lane s x 1 ^^^ lane s x 2 ^^^ lane s x 3 ^^^ lane s x 4

def theta (s : State) : State :=
  let parities := Vector.ofFn fun x : Fin 5 => column s x.val
  let spread := Vector.ofFn fun x : Fin 5 =>
    parities.getD ((x.val + 4) % 5) 0 ^^^ rotateLeft64 (parities.getD ((x.val + 1) % 5) 0) 1
  Vector.ofFn fun i : Fin 25 => s[i] ^^^ spread.getD (i.val % 5) 0

-- Rotates every lane and moves lane (x, y) to (y, 2x + 3y). Read backwards, the lane at (x, y)
-- comes from (x + 3y, x).
def rhoPi (s : State) : State :=
  Vector.ofFn fun i : Fin 25 =>
    let x := i.val % 5
    let y := i.val / 5
    let source := (x + 3 * y) % 5 + 5 * x
    rotateLeft64 (s.getD source 0) (rotations.getD source 0)

def chi (s : State) : State :=
  Vector.ofFn fun i : Fin 25 =>
    let x := i.val % 5
    let y := i.val / 5
    s[i] ^^^ (~~~lane s (x + 1) y &&& lane s (x + 2) y)

def round (s : State) (constant : UInt64) : State :=
  let s := chi (rhoPi (theta s))
  s.set 0 (s[0] ^^^ constant)

def permute (s : State) : State := roundConstants.foldl round s

def rate : Nat := 136

-- Ones at both ends of the filling; where one byte is missing they share it.
def padding (length : Nat) : Bytes :=
  let missing := rate - length % rate
  if missing = 1 then [129] else 1 :: (Bytes.zeros (missing - 2) ++ [128])

def absorb (s : State) (block : Bytes) : State :=
  let words := ((pieces 8 17 block).map fun word => UInt64.ofNat (Bytes.valueLittle word)).toArray
  permute (Vector.ofFn fun i : Fin 25 => s[i] ^^^ words.getD i.val 0)

-- The first four lanes are the digest.
def squeeze (s : State) : Bytes :=
  [s[0], s[1], s[2], s[3]].flatMap fun word => Bytes.ofNatLittle 8 word.toNat

def digest (message : Bytes) : Bytes :=
  let padded := message ++ padding message.length
  squeeze ((pieces rate (message.length / rate + 1) padded).foldl absorb (Vector.replicate 25 0))

@[simp] theorem length_digest (message : Bytes) : (digest message).length = 32 := by
  simp [digest, squeeze]

end NativeContracts.Keccak
