import NativeContracts.Address
import NativeContracts.Event

-- Priced operations and the prepaid call: gas is charged first, and what was not charged for is
-- not done.

namespace NativeContracts

-- What an operation is told about a call.
structure Invocation where
  input : Bytes := []
  caller : Address := .zero
  value : BitVec 256 := 0
  readOnly : Bool := false
deriving DecidableEq

-- A call as it reaches the dispatcher.
structure Call where
  input : Bytes := []
  caller : Address := .zero
  value : BitVec 256 := 0
  gasLimit : Gas := 0
  isStatic : Bool := false
deriving DecidableEq

def Call.invocation (call : Call) : Invocation :=
  ⟨call.input, call.caller, call.value, call.isStatic⟩

-- An operation of a world with effects `m`; its price depends on the input alone.
structure Operation (m : Type → Type) (ε : Type) where
  price : Bytes → Gas
  execute : Invocation → m (Except ε Bytes)

structure CallOutput where
  output : Bytes
  remaining : Gas
deriving DecidableEq

inductive CallError (ε : Type)
  | outOfGas (required supplied : Gas)
  | execution (error : ε) (remaining : Gas)
deriving DecidableEq

namespace CallError

variable {ε : Type}

-- Running out of gas takes all of it.
def remaining : CallError ε → Gas
  | outOfGas _ _ => 0
  | execution _ remaining => remaining

def isOutOfGas : CallError ε → Bool
  | outOfGas _ _ => true
  | execution _ _ => false

def message (text : ε → String) : CallError ε → String
  | outOfGas required supplied =>
    "out of gas: required " ++ toString required.toNat ++ ", supplied " ++
      toString supplied.toNat
  | execution error _ => "precompile execution failed: " ++ text error

end CallError

abbrev CallResult (ε : Type) := Except (CallError ε) CallOutput

-- The gas that a call leaves.
def CallResult.remaining {ε : Type} : CallResult ε → Gas
  | .ok output => output.remaining
  | .error error => error.remaining

namespace Operation

variable {m : Type → Type} [Monad m] {ε : Type}

-- Charges the price and then executes once, or does nothing if the limit is below the price.
def run (operation : Operation m ε) (call : Call) : m (CallResult ε × Event) :=
  let required := operation.price call.input
  if call.gasLimit < required then
    pure (.error (.outOfGas required call.gasLimit), .outOfGas required call.gasLimit)
  else do
    let remaining := call.gasLimit - required
    match ← operation.execute call.invocation with
    | .ok output => pure (.ok ⟨output, remaining⟩, .executed required remaining)
    | .error error => pure (.error (.execution error remaining), .failed required remaining)

end Operation

end NativeContracts
