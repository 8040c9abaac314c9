import NativeContracts.Address
import NativeContracts.Digest.Keccak

-- The written form of an address with its checksum in the case of its letters (EIP-55).

namespace NativeContracts.Address

-- A letter is a capital where the digit of the hash at its place is 8 or more.
def capitalised (digits : List Char) (hash : Bytes) : List Char :=
  let halves := hash.flatMap fun byte => [byte.toNat / 16, byte.toNat % 16]
  digits.zipWith (fun c half => if 8 ≤ half then c.toUpper else c) halves

-- The hash is taken of the forty lower-case digits as text.
def toText (a : Address) : String :=
  let digits := Hex.digits a.toBytes
  let hash := Keccak.digest (digits.map fun c => UInt8.ofNat c.toNat)
  String.ofList ('0' :: 'x' :: capitalised digits hash)

end NativeContracts.Address
