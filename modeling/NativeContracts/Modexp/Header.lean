import NativeContracts.Modexp

-- What the price of a modular exponentiation is read from.

namespace NativeContracts.Modexp

-- The three declared lengths, each cut to the largest 64-bit number, and the number that the
-- first bytes of the exponent make, at most 32 of them.
structure Header where
  baseLength : UInt64
  exponentLength : UInt64
  modulusLength : UInt64
  head : Nat
deriving DecidableEq

-- Three words hold the lengths of base, exponent and modulus; the data follows. Where the input
-- ends, zeros are read.
def Header.read (input : Bytes) : Header :=
  let baseLength := Saturating.ofNat (input.valueAt 0 32)
  let exponentLength := Saturating.ofNat (input.valueAt 32 32)
  let modulusLength := Saturating.ofNat (input.valueAt 64 32)
  let data : Bytes := input.drop 96
  let head :=
    if baseLength.toNat < data.length
    then data.valueAt baseLength.toNat (min exponentLength.toNat 32)
    else 0
  ⟨baseLength, exponentLength, modulusLength, head⟩

-- The price of a call with this input.
def Pricing.quote (pricing : Pricing) (input : Bytes) : Gas :=
  let header := Header.read input
  pricing.cost header.baseLength header.exponentLength header.modulusLength header.head

end NativeContracts.Modexp
