import NativeContracts.Ruleset.Text
import NativeContracts.Saturating

-- What the dispatcher tells an observer.

namespace NativeContracts

inductive Event
  | brokenChain (ruleset : Ruleset) (link : BrokenLink)
  | resolved (revision : Revision) (chainId : UInt64) (count : Nat)
  | outOfGas (required supplied : Gas)
  | executed (required remaining : Gas)
  | failed (required remaining : Gas)
deriving DecidableEq

namespace Event

def level : Event → String
  | brokenChain .. => "WARN"
  | resolved .. => "DEBUG"
  | outOfGas .. | executed .. | failed .. => "TRACE"

def message : Event → String
  | brokenChain .. => "Inconsistent rule set"
  | resolved .. => "Resolved precompile table"
  | outOfGas .. => "Precompile out of gas"
  | executed .. => "Precompile executed"
  | failed .. => "Precompile failed"

-- The named values of an event, as text.
def fields : Event → List (String × String)
  | brokenChain ruleset link => [("rules", ruleset.logText), ("err", link.message)]
  | resolved revision chainId count =>
    [("spec", revision.name), ("chain_id", toString chainId.toNat), ("count", toString count)]
  | outOfGas required supplied =>
    [("required", toString required.toNat), ("supplied", toString supplied.toNat)]
  | executed required remaining | failed required remaining =>
    [("required", toString required.toNat), ("remaining_gas", toString remaining.toNat)]

end Event

end NativeContracts
