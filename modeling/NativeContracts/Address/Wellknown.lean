import NativeContracts.Address

-- The low addresses at which the built-in contracts stand.

namespace NativeContracts.Address

def ecRecover : Address := ofNat 1

def sha256 : Address := ofNat 2

def ripemd160 : Address := ofNat 3

def identity : Address := ofNat 4

def modexp : Address := ofNat 5

def bn254Add : Address := ofNat 6

def bn254Mul : Address := ofNat 7

def bn254Pairing : Address := ofNat 8

def blake2f : Address := ofNat 9

def wellknown : List Address :=
  [ecRecover, sha256, ripemd160, identity, modexp, bn254Add, bn254Mul, bn254Pairing, blake2f]

end NativeContracts.Address
