import NativeContracts.Curve.Bn254.Pairing
import NativeContracts.Routine

-- The metered routines of the pairing-friendly curve: sum, multiple, and the pairing check.

namespace NativeContracts.Bn254

-- The earlier prices and the lower ones that replaced them.
inductive Pricing
  | byzantium
  | istanbul
deriving DecidableEq

namespace Pricing

def sum : Pricing → Gas
  | byzantium => 500
  | istanbul => 150

def multiple : Pricing → Gas
  | byzantium => 40000
  | istanbul => 6000

def pairingBase : Pricing → Gas
  | byzantium => 100000
  | istanbul => 45000

def perPair : Pricing → Gas
  | byzantium => 80000
  | istanbul => 34000

end Pricing

-- A pair is a point of the curve and one of the twist: six coordinates.
def pairLength : Nat := 192

def fault : PointFault → Fault
  | .notInField => .curveField
  | .notInGroup => .curveGroup

def pointAt (input : Bytes) (start : Nat) : Except Fault (Point Fq) :=
  (readPoint input start).mapError fault

def twistPointAt (input : Bytes) (start : Nat) : Except Fault (Point Fq2) :=
  (readTwistPoint input start).mapError fault

def sumOutput (input : Bytes) : Except Fault Bytes := do
  let a ← pointAt input 0
  let b ← pointAt input 64
  return toBytes (a.add b)

def multipleOutput (input : Bytes) : Except Fault Bytes := do
  let a ← pointAt input 0
  return toBytes (a.multiple (input.valueAt 64 32))

def pairAt (input : Bytes) (start : Nat) : Except Fault (Point Fq × Point Fq2) := do
  let p ← pointAt input start
  let base ← twistPointAt input (start + 64)
  return (p, base)

-- The first `count` pairs.
def pairs : Nat → Bytes → Except Fault (List (Point Fq × Point Fq2))
  | 0, _ => .ok []
  | count + 1, input => do
    let pair ← pairAt input 0
    let rest ← pairs count (input.drop pairLength)
    return pair :: rest

def pairingOutput (input : Bytes) : Except Fault Bytes := do
  let pairs ← pairs (input.length / pairLength) input
  return Bytes.ofNat 32 (productIsOne pairs).toNat

def sumRoutine (pricing : Pricing) : Routine := fun input limit => do
  charge limit pricing.sum
  return ⟨pricing.sum, ← sumOutput input⟩

def multipleRoutine (pricing : Pricing) : Routine := fun input limit => do
  charge limit pricing.multiple
  return ⟨pricing.multiple, ← multipleOutput input⟩

-- The price counts whole pairs and is charged before the length is looked at.
def pairingRoutine (pricing : Pricing) : Routine := fun input limit => do
  let cost := UInt64.ofNat (input.length / pairLength) * pricing.perPair + pricing.pairingBase
  charge limit cost
  if input.length % pairLength ≠ 0 then throw .pairingLength
  return ⟨cost, ← pairingOutput input⟩

end NativeContracts.Bn254
