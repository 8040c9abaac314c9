import NativeContracts.Bytes
import NativeContracts.Curve.Point
import NativeContracts.Curve.Residue

-- The curve y² = x³ + 7 of transaction signatures, and the recovery of the signer's key.

namespace NativeContracts.Secp256k1

-- The order of the field.
def p : Nat := 0xfffffffffffffffffffffffffffffffffffffffffffffffffffffffefffffc2f

-- The order of the group.
def n : Nat := 0xfffffffffffffffffffffffffffffffebaaedce6af48a03bbfd25e8cd0364141

instance : Modulus p := ⟨by decide⟩

instance : Modulus n := ⟨by decide⟩

abbrev Coordinate := Residue p

abbrev Scalar := Residue n

def coefficient : Coordinate := Residue.ofNat p 7

def generator : Point Coordinate :=
  .affine
    (Residue.ofNat p 0x79be667ef9dcbbac55a06295ce870b07029bfcdb2dce28d959f2815b16f81798)
    (Residue.ofNat p 0x483ada7726a3c4655da4fbfc0e1108a8fd17b448a68554199c47d08ffb10d4b8)

-- The point with this first coordinate whose second one has this parity.
def lift? (x : Nat) (odd : Bool) : Option (Point Coordinate) := do
  let x ← Residue.ofNat? p x
  let y ← (x * x * x + coefficient).squareRoot?
  return .affine x (if y.val % 2 = odd.toNat then y else -y)

structure Signature where
  r : Nat
  s : Nat
  odd : Bool

-- The key with which `signature` signs a message of this hash. The scalars must be in
-- 1, …, n - 1, and the key must not be the point at infinity.
def recover? (hash : Nat) (signature : Signature) : Option (Point Coordinate) := do
  let r ← Residue.ofNat? n signature.r
  let s ← Residue.ofNat? n signature.s
  if r.val = 0 ∨ s.val = 0 then none
  let nonce ← lift? signature.r signature.odd
  let forNonce := s / r
  let forGenerator := -(Residue.ofNat n hash / r)
  match Point.add (nonce.multiple forNonce.val) (generator.multiple forGenerator.val) with
  | .infinity => none
  | key => some key

-- Both coordinates, 32 bytes each.
def toBytes : Point Coordinate → Bytes
  | .infinity => Bytes.zeros 64
  | .affine x y => Bytes.ofNat 32 x.val ++ Bytes.ofNat 32 y.val

end NativeContracts.Secp256k1
