import NativeContracts.Decimal

-- The shortest decimal number that reads back as a given float.

namespace NativeContracts.Decimal

-- A positive float and the numbers that round to it, in units of a power of two: from `low` to
-- `high`, with the ends if they round to it too.
structure Interval where
  low : Nat
  centre : Nat
  high : Nat
  closed : Bool
  binaryExponent : Int
deriving DecidableEq

-- A float is m · 2^q. Half the distance to each neighbour rounds to it; the neighbour below a
-- power of two is only half as far away. An end of the interval rounds to the even m.
def Interval.ofBits (bits : Nat) : Interval :=
  let field := bits / 0x10000000000000 % 0x800
  let fraction := bits % 0x10000000000000
  let m := if field = 0 then fraction else fraction + 0x10000000000000
  let q : Int := (max field 1 : Nat) - 1075
  let below := if fraction = 0 ∧ 1 < field then 1 else 2
  ⟨4 * m - below, 4 * m, 4 * m + 2, m % 2 = 0, q - 2⟩

def natPower (base : Nat) (e : Int) : Nat := Nat.pow base e.toNat

-- The interval in units of the step 10^exponent: every bound times `numerator`, over
-- `denominator`.
structure Grid where
  interval : Interval
  exponent : Int
  numerator : Nat
  denominator : Nat

def Grid.of (interval : Interval) (exponent : Int) : Grid where
  interval := interval
  exponent := exponent
  numerator := natPower 2 interval.binaryExponent * natPower 10 (-exponent)
  denominator := natPower 2 (-interval.binaryExponent) * natPower 10 exponent

namespace Grid

def contains (g : Grid) (n : Nat) : Bool :=
  let value := n * g.denominator
  let low := g.interval.low * g.numerator
  let high := g.interval.high * g.numerator
  if g.interval.closed then low ≤ value && value ≤ high else low < value && value < high

-- The grid point below the centre and the one above it.
def floor (g : Grid) : Nat := g.interval.centre * g.numerator / g.denominator

-- The grid point in the interval that is nearest to the centre; of two equally near, the even
-- one.
def nearest? (g : Grid) : Option Decimal :=
  let below := g.floor
  let above := below + 1
  let centre := g.interval.centre * g.numerator
  let down := centre - below * g.denominator
  let up := above * g.denominator - centre
  let takeBelow := down < up || (down = up && below % 2 = 0)
  match g.contains below, g.contains above with
  | true, true => some ⟨if takeBelow then below else above, g.exponent⟩
  | true, false => some ⟨below, g.exponent⟩
  | false, true => some ⟨above, g.exponent⟩
  | false, false => none

end Grid

-- The power of ten of the first digit of the centre.
def Interval.leadingExponent (interval : Interval) : Int :=
  let numerator := interval.centre * natPower 2 interval.binaryExponent
  let denominator := natPower 2 (-interval.binaryExponent)
  let whole := numerator / denominator
  let isBelow (k : Nat) : Bool := numerator * Nat.pow 10 k < denominator
  if whole ≠ 0 then ((Nat.toDigits 10 whole).length - 1 : Nat)
  else -((List.range 400).takeWhile isBelow).length

-- The first grid, from one digit to seventeen, with a point in the interval. Seventeen digits
-- always have one.
def shortest (bits : Nat) : Decimal :=
  let interval := Interval.ofBits bits
  let top := interval.leadingExponent
  let candidates := (List.range 17).filterMap fun (k : Nat) =>
    (Grid.of interval (top - (k : Int))).nearest?
  (candidates.headD ⟨0, 0⟩).trim

end NativeContracts.Decimal
