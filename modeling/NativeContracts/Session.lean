import NativeContracts.Dispatcher
import NativeContracts.Probe
import NativeContracts.Shelf

-- A run of calls against one dispatcher at a time. The gas that a call leaves is the balance, and
-- the last output can be the next input.

namespace NativeContracts

structure Session where
  dispatcher : Dispatcher
  saved : Shelf Dispatcher
  probes : Shelf Probe
  previous : Bytes
  balance : Gas

inductive Step
  | adopt (ruleset : Ruleset)
  | rechain (chainId : UInt64)
  | save (name : String)
  | load (name : String)
  | fund (gas : Gas)
  | place (name : String) (probe : Probe)
  | look (address : Address)
  | priceProbe (name : String)
  | priceContract (contract : Contract) (input : Bytes)
  | execute (name : String) (invocation : Invocation)
  | runProbe (name : String) (call : Call)
  | runContract (contract : Contract) (call : Call)
  | runAddress (address : Address) (call : Call)

inductive Reply
  | absent
  | dispatcher (dispatcher : Dispatcher)
  | saved (count : Nat)
  | funded (balance : Gas)
  | placed (probe : Probe)
  | found (contract : Option Contract)
  | price (gas : Gas)
  | executed (result : Except String Bytes) (probe : Probe)
  | ranProbe (result : CallResult String) (balance : Gas) (probe : Probe)
  | ranContract (result : CallResult Failure) (balance : Gas)

namespace Session

-- No fork is active, nothing is saved, and there is no gas.
def start : Session where
  dispatcher := .ofRuleset .empty
  saved := .empty
  probes := .empty
  previous := []
  balance := 0

-- A successful output is the previous one from then on.
def keepOutput (s : Session) : Option Bytes → Session
  | some output => { s with previous := output }
  | none => s

-- What a call leaves is the balance.
def settle {ε : Type} (s : Session) (result : CallResult ε) : Session :=
  { s.keepOutput (result.toOption.map (·.output)) with balance := CallResult.remaining result }

def adopt (s : Session) (ruleset : Ruleset) : Session × Reply × List Event :=
  let d := Dispatcher.ofRuleset ruleset
  ({ s with dispatcher := d }, .dispatcher d, d.announcement)

def runContract (s : Session) (contract : Contract) (call : Call) :
    Session × Reply × List Event :=
  let (result, event) := contract.operation.run call
  let s := s.settle result
  (s, .ranContract result s.balance, [event])

-- A step that names nothing known changes nothing.
def step (s : Session) : Step → Session × Reply × List Event
  | .adopt ruleset => s.adopt ruleset
  | .rechain chainId => s.adopt (s.dispatcher.ruleset.withChainId chainId)
  | .save name =>
    let saved := s.saved.put name s.dispatcher
    ({ s with saved }, .saved saved.size, [])
  | .load name =>
    match s.saved.get? name with
    | none => (s, .absent, [])
    | some d => ({ s with dispatcher := d }, .dispatcher d, [])
  | .fund gas => ({ s with balance := gas }, .funded gas, [])
  | .place name probe => ({ s with probes := s.probes.put name probe }, .placed probe, [])
  | .look address => (s, .found (s.dispatcher.get? address), [])
  | .priceProbe name =>
    match s.probes.get? name with
    | none => (s, .absent, [])
    | some probe => (s, .price probe.price, [])
  | .priceContract contract input => (s, .price (contract.quote input), [])
  | .execute name invocation =>
    match s.probes.get? name with
    | none => (s, .absent, [])
    | some probe =>
      let (result, probe) := probe.execute invocation
      let s := { s with probes := s.probes.put name probe }
      (s.keepOutput result.toOption, .executed result probe, [])
  | .runProbe name call =>
    match s.probes.get? name with
    | none => (s, .absent, [])
    | some probe =>
      let ((result, event), probe) := probe.run call
      let s := { s with probes := s.probes.put name probe }.settle result
      (s, .ranProbe result s.balance probe, [event])
  | .runContract contract call => s.runContract contract call
  | .runAddress address call =>
    match s.dispatcher.get? address with
    | none => (s, .absent, [])
    | some contract => s.runContract contract call

end Session

end NativeContracts
