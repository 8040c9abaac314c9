import NativeContracts.Address.Checksum
import NativeContracts.Modexp.Header
import NativeContracts.Price
import NativeContracts.Routine.Deployment

-- The built-in contracts: where each stands, what it asks for a call, and what a call does. A
-- contract whose price changed is a different contract at the same address.

namespace NativeContracts

inductive Contract
  | ecRecover
  | sha256
  | ripemd160
  | identity
  | modexp (pricing : Modexp.Pricing)
  | bn254Add (pricing : Bn254.Pricing)
  | bn254Mul (pricing : Bn254.Pricing)
  | bn254Pairing (pricing : Bn254.Pricing)
  | blake2f
deriving DecidableEq

-- Why a built-in contract gives no output.
inductive Failure
  | unavailable (address : Address) (revision : Revision)
  | backend (reason : String)
deriving DecidableEq

def Failure.message : Failure → String
  | unavailable address revision =>
    "no backing implementation for precompile " ++ address.toText ++ " in " ++ revision.name
  | backend reason => reason

namespace Contract

def all : List Contract :=
  [.ecRecover, .sha256, .ripemd160, .identity, .modexp .eip198, .modexp .eip2565,
   .bn254Add .byzantium, .bn254Add .istanbul, .bn254Mul .byzantium, .bn254Mul .istanbul,
   .bn254Pairing .byzantium, .bn254Pairing .istanbul, .blake2f]

theorem mem_all (c : Contract) : c ∈ all := by
  cases c <;> (try rename_i p; cases p) <;> decide

def address : Contract → Address
  | ecRecover => .ecRecover
  | sha256 => .sha256
  | ripemd160 => .ripemd160
  | identity => .identity
  | modexp _ => .modexp
  | bn254Add _ => .bn254Add
  | bn254Mul _ => .bn254Mul
  | bn254Pairing _ => .bn254Pairing
  | blake2f => .blake2f

def name : Contract → String
  | ecRecover => "ecrecover"
  | sha256 => "sha256"
  | ripemd160 => "ripemd160"
  | identity => "identity"
  | modexp _ => "modexp"
  | bn254Add _ => "bn254_add"
  | bn254Mul _ => "bn254_mul"
  | bn254Pairing _ => "bn254_pairing"
  | blake2f => "blake2f"

-- The name together with the pricing, which tells all contracts apart.
def label : Contract → String
  | ecRecover => "EcRecover"
  | sha256 => "Sha256"
  | ripemd160 => "Ripemd160"
  | identity => "Identity"
  | modexp .eip198 => "ModExp(Eip198)"
  | modexp .eip2565 => "ModExp(Eip2565)"
  | bn254Add .byzantium => "Bn254Add(Byzantium)"
  | bn254Add .istanbul => "Bn254Add(Istanbul)"
  | bn254Mul .byzantium => "Bn254Mul(Byzantium)"
  | bn254Mul .istanbul => "Bn254Mul(Istanbul)"
  | bn254Pairing .byzantium => "Bn254Pairing(Byzantium)"
  | bn254Pairing .istanbul => "Bn254Pairing(Istanbul)"
  | blake2f => "Blake2F"

def ofLabel? (text : String) : Option Contract := all.find? (·.label == text)

-- The revision that brought the contract.
def since : Contract → Revision
  | ecRecover | sha256 | ripemd160 | identity => .homestead
  | modexp .eip198 | bn254Add .byzantium | bn254Mul .byzantium | bn254Pairing .byzantium =>
    .byzantium
  | bn254Add .istanbul | bn254Mul .istanbul | bn254Pairing .istanbul | blake2f => .istanbul
  | modexp .eip2565 => .berlin

-- The gas that a call with this input costs.
def quote (c : Contract) (input : Bytes) : Gas :=
  match c with
  | ecRecover => Price.recovery
  | sha256 => LinearPrice.sha256.quote input.length
  | ripemd160 => LinearPrice.ripemd160.quote input.length
  | identity => LinearPrice.identity.quote input.length
  | modexp pricing => pricing.quote input
  | bn254Add pricing => pricing.sum
  | bn254Mul pricing => pricing.multiple
  | bn254Pairing pricing => Price.pairing pricing.pairingBase pricing.perPair input.length
  | blake2f => Price.compression input

-- The output of a call that has been paid for: the routine behind the contract is given a limit
-- that never binds.
def execute (c : Contract) (input : Bytes) : Except Failure Bytes :=
  match Deployment.routine? c.since c.address with
  | none => .error (.unavailable c.address c.since)
  | some routine =>
    match routine input Gas.most with
    | .ok receipt => .ok receipt.output
    | .error fault => .error (.backend fault.message)

end Contract

end NativeContracts
