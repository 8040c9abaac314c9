import NativeContracts.Curve.Secp256k1
import NativeContracts.Digest.Keccak
import NativeContracts.Price
import NativeContracts.Routine

-- Recovery of the address that signed a message.

namespace NativeContracts.Recovery

-- The last twenty bytes of the hash of a key, in a word of 32 bytes.
def addressWord (key : Point Secp256k1.Coordinate) : Bytes :=
  Bytes.zeros 12 ++ (Keccak.digest (Secp256k1.toBytes key)).drop 12

-- Four words: the hash, 27 or 28 for the parity, and the two scalars of the signature.
def signature? (input : Bytes) : Option Secp256k1.Signature :=
  let v := input.valueAt 32 32
  if v = 27 ∨ v = 28 then some ⟨input.valueAt 64 32, input.valueAt 96 32, v = 28⟩ else none

-- Nothing, for a signature that nobody can have made.
def output (input : Bytes) : Bytes :=
  match signature? input >>= Secp256k1.recover? (input.valueAt 0 32) with
  | some key => addressWord key
  | none => []

def routine : Routine := fun input limit => do
  charge limit Price.recovery
  return ⟨Price.recovery, output input⟩

end NativeContracts.Recovery
