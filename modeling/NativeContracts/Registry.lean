import NativeContracts.Contract

-- The contracts in force at a revision, by address. A later registry extends an earlier one:
-- addresses are added or repriced, never removed.

namespace NativeContracts

structure Registry where
  revision : Revision
  slots : Address → Option Contract
  addresses : List Address

namespace Registry

def empty (revision : Revision) : Registry := ⟨revision, fun _ => none, []⟩

def get? (t : Registry) (a : Address) : Option Contract := t.slots a

def contains (t : Registry) (a : Address) : Bool := (t.slots a).isSome

-- Puts a contract at its address, in place of the one that stood there.
def insert (t : Registry) (c : Contract) : Registry :=
  { t with
    slots := fun a => if a = c.address then some c else t.slots a
    addresses :=
      if t.contains c.address then t.addresses else c.address.insertOrdered t.addresses }

def extend (t : Registry) (contracts : List Contract) : Registry := contracts.foldl insert t

def size (t : Registry) : Nat := t.addresses.length

def isEmpty (t : Registry) : Bool := t.addresses.isEmpty

-- The contracts with their addresses, in the order of the addresses.
def entries (t : Registry) : List (Address × Contract) :=
  t.addresses.filterMap fun a => (t.get? a).map fun c => (a, c)

def homestead : Registry :=
  (empty .homestead).extend [.ecRecover, .sha256, .ripemd160, .identity]

def byzantium : Registry :=
  { homestead with revision := .byzantium }.extend
    [.modexp .eip198, .bn254Add .byzantium, .bn254Mul .byzantium, .bn254Pairing .byzantium]

def istanbul : Registry :=
  { byzantium with revision := .istanbul }.extend
    [.bn254Add .istanbul, .bn254Mul .istanbul, .bn254Pairing .istanbul, .blake2f]

def berlin : Registry :=
  { istanbul with revision := .berlin }.extend [.modexp .eip2565]

def ofRevision : Revision → Registry
  | .homestead => homestead
  | .byzantium => byzantium
  | .istanbul => istanbul
  | .berlin => berlin

end Registry

end NativeContracts
