import NativeContracts.Operation

-- An operation with a fixed price and a fixed answer, which remembers how it was called.

namespace NativeContracts

structure Probe where
  price : Gas
  answer : Except String Bytes
  calls : Nat := 0
  lastCall : Option Invocation := none

namespace Probe

-- Counts the call and keeps its arguments, whatever the answer is.
def record (probe : Probe) (invocation : Invocation) : Probe :=
  { probe with calls := probe.calls + 1, lastCall := some invocation }

-- The probe as an operation whose world is the probe itself.
def operation (probe : Probe) : Operation (StateM Probe) String where
  price _ := probe.price
  execute invocation := do
    modify (·.record invocation)
    return (← get).answer

def execute (probe : Probe) (invocation : Invocation) : Except String Bytes × Probe :=
  (probe.operation.execute invocation).run probe

def run (probe : Probe) (call : Call) : (CallResult String × Event) × Probe :=
  (probe.operation.run call).run probe

end Probe

end NativeContracts
