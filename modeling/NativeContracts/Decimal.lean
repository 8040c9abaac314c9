-- Decimal numbers: a row of digits and where its point stands.

namespace NativeContracts

-- The value is `digits` times ten to the power `exponent`.
structure Decimal where
  digits : Nat
  exponent : Int
deriving DecidableEq

namespace Decimal

-- Moves zeros at the end of the digits into the exponent.
def trimWith : Nat → Decimal → Decimal
  | 0, d => d
  | fuel + 1, d =>
    if d.digits ≠ 0 ∧ d.digits % 10 = 0 then trimWith fuel ⟨d.digits / 10, d.exponent + 1⟩ else d

def trim (d : Decimal) : Decimal := trimWith d.digits.log2 d

def digitChars (d : Decimal) : List Char := Nat.toDigits 10 d.digits

-- The power of ten of the first digit.
def leadingExponent (d : Decimal) : Int := d.exponent + (d.digitChars.length - 1 : Nat)

end Decimal

end NativeContracts
