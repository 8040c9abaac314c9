import NativeContracts.Digest.Ripemd160
import NativeContracts.Digest.Sha256
import NativeContracts.Price
import NativeContracts.Routine

-- The routines that read their input once from end to end: two digests and the plain copy.
-- Each costs a base and a price for every word of 32 bytes, the last one counted whole.

namespace NativeContracts.Copying

def words (input : Bytes) : Nat := (input.length + 31) / 32

def metered (price : LinearPrice) (output : Bytes → Bytes) : Routine := fun input limit => do
  let cost := UInt64.ofNat (price.base.toNat + price.perWord.toNat * words input)
  charge limit cost
  return ⟨cost, output input⟩

def sha256 : Routine := metered .sha256 Sha256.digest

-- The digest of twenty bytes fills the low end of a word.
def ripemd160 : Routine :=
  metered .ripemd160 fun input => Bytes.zeros 12 ++ Ripemd160.digest input

def identity : Routine := metered .identity fun input => input

end NativeContracts.Copying
