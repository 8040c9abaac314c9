import NativeContracts.Fork
import NativeContracts.Revision

-- A chain's rules: its id, and for each fork whether it is active. Nothing forces the active
-- forks to be the first ones of the chain; `brokenLink?` finds where they are not.

namespace NativeContracts

structure Ruleset where
  chainId : UInt64 := 0
  active : Fork → Bool := fun _ => false

namespace Ruleset

@[ext] theorem ext {r s : Ruleset} (hid : r.chainId = s.chainId)
    (hactive : ∀ f, r.active f = s.active f) : r = s := by
  cases r; cases s
  simp only [mk.injEq]
  exact ⟨hid, funext hactive⟩

instance : DecidableEq Ruleset := fun r s =>
  decidable_of_iff
    (r.chainId = s.chainId ∧ ∀ f ∈ Fork.chain, r.active f = s.active f)
    ⟨fun h => ext h.1 fun f => h.2 f (Fork.mem_chain f), fun h => h ▸ ⟨rfl, fun _ _ => rfl⟩⟩

-- No fork active, chain id zero.
def empty : Ruleset := {}

def withChainId (r : Ruleset) (chainId : UInt64) : Ruleset := { r with chainId }

def setActive (r : Ruleset) (fork : Fork) (value : Bool) : Ruleset :=
  { r with active := fun f => if f = fork then value else r.active f }

-- Every fork up to and including a revision's own.
def ofRevision (revision : Revision) : Ruleset where
  chainId := 0
  active
    | .homestead | .eip150 | .eip155 | .eip158 => true
    | .byzantium => revision.includes .byzantium
    | .constantinople | .petersburg | .istanbul => revision.includes .istanbul
    | .berlin => revision.includes .berlin
    | .london | .merge | .shanghai | .cancun | .prague => false

-- The newest revision whose fork is active, whatever the other flags say.
def revision (r : Ruleset) : Revision :=
  if r.active .berlin then .berlin
  else if r.active .istanbul then .istanbul
  else if r.active .byzantium then .byzantium
  else .base

-- The flags in activation order.
def flags (r : Ruleset) : List (Fork × Bool) := Fork.chain.map fun f => (f, r.active f)

end Ruleset

-- A fork that is active although one before it, `missing`, is not.
structure BrokenLink where
  fork : Fork
  missing : Fork
deriving DecidableEq

namespace BrokenLink

def text (fork missing : String) : String :=
  "fork " ++ fork ++ " is active but its predecessor " ++ missing ++ " is not"

def message (link : BrokenLink) : String := text link.fork.name link.missing.name

end BrokenLink

namespace Ruleset

-- The first active fork with an inactive one before it, and the first of those.
def brokenLinkFrom (r : Ruleset) : Option Fork → List Fork → Option BrokenLink
  | _, [] => none
  | none, fork :: later => r.brokenLinkFrom (if r.active fork then none else some fork) later
  | some missing, fork :: later =>
    if r.active fork then some ⟨fork, missing⟩ else r.brokenLinkFrom (some missing) later

def brokenLink? (r : Ruleset) : Option BrokenLink := r.brokenLinkFrom none Fork.chain

-- The active forks must be the first ones of the chain.
def validate (r : Ruleset) : Except BrokenLink Unit :=
  match r.brokenLink? with
  | some link => .error link
  | none => .ok ()

end Ruleset

end NativeContracts
