-- The upgrades at which the set of built-in contracts, or their prices, changed.

namespace NativeContracts

inductive Revision
  | homestead
  | byzantium
  | istanbul
  | berlin
deriving DecidableEq

namespace Revision

-- Oldest first.
def all : List Revision := [.homestead, .byzantium, .istanbul, .berlin]

-- The revision in force when no later one is.
def base : Revision := .homestead

def rank : Revision → Nat
  | .homestead => 0
  | .byzantium => 1
  | .istanbul => 2
  | .berlin => 3

instance : LE Revision := ⟨fun a b => a.rank ≤ b.rank⟩

instance : LT Revision := ⟨fun a b => a.rank < b.rank⟩

instance (a b : Revision) : Decidable (a ≤ b) := inferInstanceAs (Decidable (a.rank ≤ b.rank))

instance (a b : Revision) : Decidable (a < b) := inferInstanceAs (Decidable (a.rank < b.rank))

theorem le_iff (a b : Revision) : a ≤ b ↔ a.rank ≤ b.rank := Iff.rfl

theorem lt_iff (a b : Revision) : a < b ↔ a.rank < b.rank := Iff.rfl

-- Everything that came with `earlier` is still there in `r`.
def includes (r earlier : Revision) : Bool := decide (earlier ≤ r)

def newer (a b : Revision) : Revision := if a ≤ b then b else a

def comparison (a b : Revision) : Ordering := compare a.rank b.rank

def name : Revision → String
  | .homestead => "Homestead"
  | .byzantium => "Byzantium"
  | .istanbul => "Istanbul"
  | .berlin => "Berlin"

-- The spelling in JSON text and in debug output.
def capitals : Revision → String
  | .homestead => "HOMESTEAD"
  | .byzantium => "BYZANTIUM"
  | .istanbul => "ISTANBUL"
  | .berlin => "BERLIN"

def ofName? (text : String) : Option Revision := all.find? (·.name == text)

def ofCapitals? (text : String) : Option Revision := all.find? (·.capitals == text)

-- The place of the upgrade among all upgrades of the protocol, which are numbered from 0.
def protocolOrdinal : Revision → Nat
  | .homestead => 2
  | .byzantium => 6
  | .istanbul => 9
  | .berlin => 11

end Revision

end NativeContracts
