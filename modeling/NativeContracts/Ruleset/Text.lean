import NativeContracts.Ruleset

-- Rule sets written out for a log, field by field in the order of the chain.

namespace NativeContracts.Ruleset

def flagText (value : Bool) : String := if value then "true" else "false"

def logText (r : Ruleset) : String :=
  let flags := r.flags.map fun (fork, value) => ", " ++ fork.flag ++ ": " ++ flagText value
  "Rules \x7b chain_id: " ++ toString r.chainId.toNat ++ String.join flags ++ " \x7d"

end NativeContracts.Ruleset
