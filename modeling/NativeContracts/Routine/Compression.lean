import NativeContracts.Digest.Blake2
import NativeContracts.Routine

-- The metered routine of the BLAKE2b compression function, one unit of gas a round.

namespace NativeContracts.Blake2

-- The only length that a call may have.
def inputLength : Nat := 213

def wordAt (input : Bytes) (start : Nat) : UInt64 :=
  UInt64.ofNat (input.part start 8).valueLittle

-- Rounds, state, message, two words of offset, and a flag for the last block.
def parameters (input : Bytes) (last : Bool) : Parameters where
  rounds := (input.part 0 4).value
  state := Vector.ofFn fun i : Fin 8 => wordAt input (4 + 8 * i.val)
  message := Vector.ofFn fun i : Fin 16 => wordAt input (68 + 8 * i.val)
  offset0 := wordAt input 196
  offset1 := wordAt input 204
  last := last

def flag (input : Bytes) : Except Fault Bool :=
  match input.drop 212 with
  | [0] => .ok false
  | [1] => .ok true
  | _ => .error .blake2Flag

-- The length is checked before gas is charged, the flag after.
def routine : Routine := fun input limit => do
  if input.length ≠ inputLength then throw .blake2Length
  let cost := UInt64.ofNat (input.part 0 4).value
  charge limit cost
  let last ← flag input
  return ⟨cost, toBytes (compress (parameters input last))⟩

end NativeContracts.Blake2
