import NativeContracts.Bytes.Hex

-- Account addresses: twenty bytes, ordered as big-endian numbers, which is the same as
-- comparing them byte by byte.

namespace NativeContracts

structure Address where
  word : BitVec 160
deriving DecidableEq

namespace Address

-- The address whose number is `n`, so the low addresses are 1, 2, 3, …
def ofNat (n : Nat) : Address := ⟨BitVec.ofNat 160 n⟩

def zero : Address := ofNat 0

def toNat (a : Address) : Nat := a.word.toNat

def toBytes (a : Address) : Bytes := Bytes.ofNat 20 a.toNat

-- Exactly twenty bytes make an address.
def ofBytes? (bytes : Bytes) : Option Address :=
  if bytes.length = 20 then some (ofNat bytes.value) else none

instance : LT Address := ⟨fun a b => a.toNat < b.toNat⟩

instance (a b : Address) : Decidable (a < b) := inferInstanceAs (Decidable (a.toNat < b.toNat))

theorem lt_iff (a b : Address) : a < b ↔ a.toNat < b.toNat := Iff.rfl

theorem toNat_inj {a b : Address} : a.toNat = b.toNat ↔ a = b := by
  refine ⟨fun h => ?_, fun h => h ▸ rfl⟩
  cases a; cases b
  simpa [toNat, BitVec.toNat_inj] using h

-- Puts an address in front of the first larger one.
def insertOrdered (a : Address) : List Address → List Address
  | [] => [a]
  | b :: rest => if a < b then a :: b :: rest else b :: insertOrdered a rest

-- Lower-case hexadecimal, without regard to the checksum.
def toHex (a : Address) : String := a.toBytes.toHex

def ofHex? (text : String) : Option Address := Bytes.ofHex? text >>= ofBytes?

end Address

end NativeContracts
