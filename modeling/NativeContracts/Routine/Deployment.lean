import NativeContracts.Address.Wellknown
import NativeContracts.Revision
import NativeContracts.Routine.Compression
import NativeContracts.Routine.Copying
import NativeContracts.Routine.CurveArithmetic
import NativeContracts.Routine.Exponentiation
import NativeContracts.Routine.Recovery

-- The metered routines that stand behind the addresses at each revision.

namespace NativeContracts.Deployment

def homestead : List (Address × Routine) :=
  [(.ecRecover, Recovery.routine), (.sha256, Copying.sha256), (.ripemd160, Copying.ripemd160),
   (.identity, Copying.identity)]

def byzantium : List (Address × Routine) :=
  [(.modexp, Modexp.routine .eip198), (.bn254Add, Bn254.sumRoutine .byzantium),
   (.bn254Mul, Bn254.multipleRoutine .byzantium),
   (.bn254Pairing, Bn254.pairingRoutine .byzantium)] ++ homestead

def istanbul : List (Address × Routine) :=
  [(.bn254Add, Bn254.sumRoutine .istanbul), (.bn254Mul, Bn254.multipleRoutine .istanbul),
   (.bn254Pairing, Bn254.pairingRoutine .istanbul), (.blake2f, Blake2.routine)] ++ byzantium

def berlin : List (Address × Routine) :=
  (.modexp, Modexp.routine .eip2565) :: istanbul

def routines : Revision → List (Address × Routine)
  | .homestead => homestead
  | .byzantium => byzantium
  | .istanbul => istanbul
  | .berlin => berlin

-- A later routine at an address stands in front of the earlier one.
def routine? (revision : Revision) (address : Address) : Option Routine :=
  (routines revision).lookup address

end NativeContracts.Deployment
