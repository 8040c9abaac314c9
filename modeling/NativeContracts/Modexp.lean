import NativeContracts.BinaryPower
import NativeContracts.Bytes
import NativeContracts.Saturating

-- Modular exponentiation: its two price formulas, and the power itself.

namespace NativeContracts.Modexp

inductive Pricing
  | eip198
  | eip2565
deriving DecidableEq

-- How many binary digits a number has; zero has none.
def bitLength (n : Nat) : Nat := if n = 0 then 0 else n.log2 + 1

-- The iterations that an exponent is priced at: one for each binary digit after the first. Of a
-- long exponent only the first 32 bytes are read, as `head`; each later byte counts in full.
def iterations (exponentLength : UInt64) (head : Nat) : UInt64 :=
  let count :=
    if exponentLength ≤ 32 then UInt64.ofNat (bitLength head - 1)
    else
      Saturating.add (Saturating.mul 8 (exponentLength - 32))
        (UInt64.ofNat (max 1 (bitLength head) - 1))
  if count = 0 then 1 else count

-- The price of one multiplication of numbers of this many bytes: a square, with less than
-- quadratic pieces for long numbers.
def complexity (length : Nat) : Nat :=
  if length ≤ 64 then length * length
  else if length ≤ 1024 then length * length / 4 + 96 * length - 3072
  else length * length / 16 + 480 * length - 199680

-- The later formula: the square of the length in words of eight bytes.
def wordComplexity (length : Nat) : Nat :=
  let words := (length + 7) / 8
  words * words

namespace Pricing

-- The least price.
def minimum : Pricing → Gas
  | eip198 => 0
  | eip2565 => 200

def cost (pricing : Pricing) (baseLength exponentLength modulusLength : UInt64) (head : Nat) :
    Gas :=
  let length := max baseLength.toNat modulusLength.toNat
  let count := (iterations exponentLength head).toNat
  match pricing with
  | eip198 => Saturating.ofNat (complexity length * count / 20)
  | eip2565 =>
    let price := Saturating.ofNat (wordComplexity length * count / 3)
    if price < 200 then 200 else price

end Pricing

-- The power modulo m, where everything is zero modulo zero.
def power (base exponent modulus : Nat) : Nat :=
  if modulus = 0 then 0
  else binaryPower (fun a b => a * b % modulus) (1 % modulus) (base % modulus) exponent

end NativeContracts.Modexp
