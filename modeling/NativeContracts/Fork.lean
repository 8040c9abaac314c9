-- The forks that a rule set has a flag for, in activation order.

namespace NativeContracts

inductive Fork
  | homestead
  | eip150
  | eip155
  | eip158
  | byzantium
  | constantinople
  | petersburg
  | istanbul
  | berlin
  | london
  | merge
  | shanghai
  | cancun
  | prague
deriving DecidableEq

namespace Fork

-- Oldest first.
def chain : List Fork :=
  [.homestead, .eip150, .eip155, .eip158, .byzantium, .constantinople, .petersburg, .istanbul,
   .berlin, .london, .merge, .shanghai, .cancun, .prague]

theorem mem_chain (f : Fork) : f ∈ chain := by cases f <;> decide

def name : Fork → String
  | .homestead => "Homestead"
  | .eip150 => "EIP150"
  | .eip155 => "EIP155"
  | .eip158 => "EIP158"
  | .byzantium => "Byzantium"
  | .constantinople => "Constantinople"
  | .petersburg => "Petersburg"
  | .istanbul => "Istanbul"
  | .berlin => "Berlin"
  | .london => "London"
  | .merge => "Merge"
  | .shanghai => "Shanghai"
  | .cancun => "Cancun"
  | .prague => "Prague"

-- The key of the flag in JSON text.
def key (f : Fork) : String := "is" ++ f.name

-- The name of the flag in debug output.
def flag (f : Fork) : String := "is_" ++ f.name.toLower

end Fork

end NativeContracts
