import NativeContracts.Operation
import NativeContracts.Registry

-- Resolves a rule set to the contracts in force, once, and runs them under a gas limit.

namespace NativeContracts

-- A built-in contract has no effects, and looks at nothing but the input.
def Contract.operation (c : Contract) : Operation Id Failure where
  price := c.quote
  execute invocation := pure (c.execute invocation.input)

structure Dispatcher where
  ruleset : Ruleset
  revision : Revision
  registry : Registry

namespace Dispatcher

-- The newest active revision decides, whether or not the rules are consistent.
def ofRuleset (ruleset : Ruleset) : Dispatcher :=
  ⟨ruleset, ruleset.revision, Registry.ofRevision ruleset.revision⟩

-- What an observer is told when a dispatcher is made.
def announcement (d : Dispatcher) : List Event :=
  let resolved := Event.resolved d.revision d.ruleset.chainId d.registry.size
  match d.ruleset.validate with
  | .ok () => [resolved]
  | .error link => [.brokenChain d.ruleset link, resolved]

def get? (d : Dispatcher) (a : Address) : Option Contract := d.registry.get? a

def contains (d : Dispatcher) (a : Address) : Bool := d.registry.contains a

-- The addresses that are warm from the start of a transaction (EIP-2929).
def warmAddresses (d : Dispatcher) : List Address := d.registry.addresses

-- Runs the contract at an address, if there is one in force.
def runAt (d : Dispatcher) (a : Address) (call : Call) : Option (CallResult Failure × Event) :=
  (d.get? a).map fun c => c.operation.run call

end Dispatcher

end NativeContracts
