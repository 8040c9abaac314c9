import NativeContracts.Bytes
import NativeContracts.Saturating

-- Prices that depend on the length of the input, in 64-bit amounts.

namespace NativeContracts

-- A base, and an amount for every word of 32 bytes, the last one counted whole.
structure LinearPrice where
  base : Gas
  perWord : Gas
deriving DecidableEq

namespace LinearPrice

def sha256 : LinearPrice := ⟨60, 12⟩

def ripemd160 : LinearPrice := ⟨600, 120⟩

def identity : LinearPrice := ⟨15, 3⟩

def quote (price : LinearPrice) (length : Nat) : Gas :=
  UInt64.ofNat ((length + 31) / 32) * price.perWord + price.base

end LinearPrice

namespace Price

-- Recovering a signer has one price.
def recovery : Gas := 3000

-- A base, and an amount for each whole pair of 192 bytes.
def pairing (base perPair : Gas) (length : Nat) : Gas :=
  Saturating.add base (Saturating.mul perPair (UInt64.ofNat (length / 192)))

-- One round of compression.
def perRound : Gas := 1

-- The only length at which a compression is worth anything.
def compressionLength : Nat := 213

-- The rounds that the first four bytes ask for. An input of another length is priced at nothing,
-- for it is refused anyway.
def compression (input : Bytes) : Gas :=
  if input.length = compressionLength
  then Saturating.mul (UInt64.ofNat (input.valueAt 0 4)) perRound
  else 0

end Price

end NativeContracts
