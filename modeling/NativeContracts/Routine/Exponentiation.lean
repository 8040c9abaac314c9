import NativeContracts.Modexp
import NativeContracts.Routine

-- The metered routine of modular exponentiation.

namespace NativeContracts.Modexp

-- A length that fits in 64 bits.
def readLength (input : Bytes) (start : Nat) (fault : Fault) : Except Fault Nat :=
  let length := input.valueAt start 32
  if length ≤ Saturating.limit then .ok length else .error fault

-- The power of the three operands behind the lengths, in as many bytes as the modulus has.
def output (input : Bytes) (baseLength exponentLength modulusLength : Nat) : Bytes :=
  let data : Bytes := input.drop 96
  let base := data.valueAt 0 baseLength
  let exponent := data.valueAt baseLength exponentLength
  let modulus := data.valueAt (baseLength + exponentLength) modulusLength
  Bytes.ofNat modulusLength (power base exponent modulus)

-- The number in front of the exponent that its price depends on.
def exponentHead (input : Bytes) (baseLength exponentLength : Nat) : Nat :=
  let data : Bytes := input.drop 96
  Bytes.value ((data.window baseLength 32).take (min exponentLength 32))

-- A call without base and modulus pays the least price; only then may the exponent be declared
-- longer than 64 bits can say.
def routine (pricing : Pricing) : Routine := fun input limit => do
  charge limit pricing.minimum
  let baseLength ← readLength input 0 .modexpBase
  let modulusLength ← readLength input 64 .modexpModulus
  if baseLength = 0 ∧ modulusLength = 0 then return ⟨pricing.minimum, []⟩
  let exponentLength ← readLength input 32 .modexpExponent
  let head := exponentHead input baseLength exponentLength
  let cost := pricing.cost (UInt64.ofNat baseLength) (UInt64.ofNat exponentLength)
    (UInt64.ofNat modulusLength) head
  charge limit cost
  return ⟨cost, output input baseLength exponentLength modulusLength⟩

end NativeContracts.Modexp
