import NativeContracts.BinaryPower

-- Numbers modulo m, always reduced. Division is by Fermat's little theorem, so it is the inverse
-- of multiplication where m is prime; dividing by zero gives zero.

namespace NativeContracts

-- A number that leaves remainders.
class Modulus (m : Nat) : Prop where
  pos : 0 < m

structure Residue (m : Nat) where
  val : Nat
  lt : val < m
deriving DecidableEq

namespace Residue

variable {m : Nat}

def ofNat (m : Nat) [Modulus m] (n : Nat) : Residue m :=
  ⟨n % m, Nat.mod_lt n Modulus.pos⟩

-- The same number, if it is reduced already.
def ofNat? (m n : Nat) : Option (Residue m) :=
  if h : n < m then some ⟨n, h⟩ else none

theorem pos (a : Residue m) : 0 < m := Nat.lt_of_le_of_lt (Nat.zero_le _) a.lt

def add (a b : Residue m) : Residue m := ⟨(a.val + b.val) % m, Nat.mod_lt _ a.pos⟩

def sub (a b : Residue m) : Residue m := ⟨(a.val + (m - b.val)) % m, Nat.mod_lt _ a.pos⟩

def neg (a : Residue m) : Residue m := ⟨(m - a.val) % m, Nat.mod_lt _ a.pos⟩

def mul (a b : Residue m) : Residue m := ⟨a.val * b.val % m, Nat.mod_lt _ a.pos⟩

instance : Add (Residue m) := ⟨add⟩

instance : Sub (Residue m) := ⟨sub⟩

instance : Neg (Residue m) := ⟨neg⟩

instance : Mul (Residue m) := ⟨mul⟩

def power [Modulus m] (a : Residue m) (n : Nat) : Residue m := binaryPower mul (ofNat m 1) a n

def inverse [Modulus m] (a : Residue m) : Residue m := a.power (m - 2)

instance [Modulus m] : Div (Residue m) := ⟨fun a b => a * b.inverse⟩

-- A square root, if there is one. Right for a prime m with remainder 3 modulo 4.
def squareRoot? [Modulus m] (a : Residue m) : Option (Residue m) :=
  let root := a.power ((m + 1) / 4)
  if root * root = a then some root else none

end Residue

end NativeContracts
