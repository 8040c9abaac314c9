-- Unsigned 64-bit amounts that stay at the largest one instead of wrapping.

namespace NativeContracts

abbrev Gas := UInt64

namespace Saturating

def limit : Nat := 18446744073709551615

-- The amount itself, or the largest amount if it does not fit.
def ofNat (n : Nat) : UInt64 := UInt64.ofNat (min n limit)

def add (a b : UInt64) : UInt64 := ofNat (a.toNat + b.toNat)

def mul (a b : UInt64) : UInt64 := ofNat (a.toNat * b.toNat)

@[simp] theorem toNat_ofNat (n : Nat) : (ofNat n).toNat = min n limit := by
  simp only [ofNat, UInt64.toNat_ofNat', limit]
  omega

@[simp] theorem toNat_add (a b : UInt64) : (add a b).toNat = min (a.toNat + b.toNat) limit :=
  toNat_ofNat _

@[simp] theorem toNat_mul (a b : UInt64) : (mul a b).toNat = min (a.toNat * b.toNat) limit :=
  toNat_ofNat _

end Saturating

namespace Gas

-- The largest supply: a limit that never binds.
def most : Gas := Saturating.ofNat Saturating.limit

end Gas

end NativeContracts
