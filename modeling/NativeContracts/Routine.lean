import NativeContracts.Bytes
import NativeContracts.Saturating

-- Metered routines: the work behind the built-in contracts. A routine is given a gas limit,
-- charges what the work costs, and answers with what it charged and produced.

namespace NativeContracts

inductive Fault
  | outOfGas
  | blake2Length
  | blake2Flag
  | modexpBase
  | modexpModulus
  | modexpExponent
  | curveField
  | curveGroup
  | pairingLength
deriving DecidableEq

namespace Fault

def message : Fault → String
  | outOfGas => "out of gas"
  | blake2Length => "wrong input length for blake2"
  | blake2Flag => "wrong final indicator flag for blake2"
  | modexpBase => "modexp base overflow"
  | modexpModulus => "modexp mod overflow"
  | modexpExponent => "modexp exp overflow"
  | curveField => "field point not a member of bn128 curve"
  | curveGroup => "failed to create affine g point for bn128 curve"
  | pairingLength => "bn128 invalid pair length"

end Fault

structure Receipt where
  gasUsed : Gas
  output : Bytes
deriving DecidableEq

abbrev Routine := Bytes → Gas → Except Fault Receipt

-- The limit covers the cost.
def charge (limit cost : Gas) : Except Fault Unit :=
  if limit < cost then .error .outOfGas else .ok ()

end NativeContracts
