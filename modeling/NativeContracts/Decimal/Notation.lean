import NativeContracts.Decimal.Shortest

-- How floats are written.

namespace NativeContracts.Decimal

structure FloatFormat where
  -- The powers of ten of the first digit at which no exponent is written.
  lowest : Int
  highest : Int

-- Without an exponent from 0.00001 up to sixteen digits before the point, and then always with a
-- point; otherwise with a signed exponent.
def FloatFormat.messages : FloatFormat := ⟨-5, 15⟩

-- The digits with a point after the first `place` of them.
def positional (digits : List Char) (place : Int) : List Char :=
  if place ≤ 0 then
    '0' :: '.' :: (List.replicate place.natAbs '0' ++ digits)
  else
    let whole := digits.take place.toNat
    let zeros := List.replicate (place.toNat - digits.length) '0'
    let fraction := digits.drop place.toNat
    whole ++ zeros ++ '.' :: (if fraction.isEmpty then ['0'] else fraction)

def scientific (digits : List Char) (exponent : Int) : List Char :=
  let mantissa :=
    match digits with
    | [] => []
    | [d] => [d]
    | d :: rest => d :: '.' :: rest
  let sign := if exponent < 0 then '-' else '+'
  mantissa ++ 'e' :: sign :: Nat.toDigits 10 exponent.natAbs

def render (format : FloatFormat) (d : Decimal) : List Char :=
  let leading := d.leadingExponent
  if format.lowest ≤ leading ∧ leading ≤ format.highest
  then positional d.digitChars (leading + 1)
  else scientific d.digitChars leading

-- 1000, 2⁶⁴, 10⁻⁵, 10⁻⁶ and the least positive float.
example : render .messages (shortest 0x408f400000000000) = "1000.0".toList := by decide +kernel

example : render .messages (shortest 0x43f0000000000000) =
    "1.8446744073709552e+19".toList := by decide +kernel

example : render .messages (shortest 0x3ee4f8b588e368f1) = "0.00001".toList := by decide +kernel

example : render .messages (shortest 0x3eb0c6f7a0b5ed8d) = "1e-6".toList := by decide +kernel

example : render .messages (shortest 1) = "5e-324".toList := by decide +kernel

-- A finite float in the fewest digits that read back.
def floatText (format : FloatFormat) (x : Float) : String :=
  let bits := x.toBits.toNat
  let sign := if 0x8000000000000000 ≤ bits then ['-'] else []
  let size := bits % 0x8000000000000000
  let digits := if size = 0 then ['0', '.', '0'] else render format (shortest size)
  String.ofList (sign ++ digits)

end NativeContracts.Decimal
