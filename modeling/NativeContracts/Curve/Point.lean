import NativeContracts.BinaryPower

-- Points of the curves y² = x³ + b, with the group law by chords and tangents.

namespace NativeContracts

inductive Point (F : Type)
  | infinity
  | affine (x y : F)
deriving DecidableEq

namespace Point

variable {F : Type} [DecidableEq F] [Add F] [Sub F] [Neg F] [Mul F] [Div F]

def OnCurve (b : F) : Point F → Prop
  | infinity => True
  | affine x y => y * y = x * x * x + b

instance (b : F) (p : Point F) : Decidable (OnCurve b p) :=
  match p with
  | infinity => isTrue trivial
  | affine x y => inferInstanceAs (Decidable (y * y = x * x * x + b))

-- The slope of the line through two points, of the tangent if they are one; none if that line
-- is vertical.
def slope? (x1 y1 x2 y2 : F) : Option F :=
  if x1 = x2 then
    if y1 = -y2 then none
    else
      let square := x1 * x1
      some ((square + square + square) / (y1 + y1))
  else some ((y2 - y1) / (x2 - x1))

-- Where the line with this slope through two points meets the curve again, reflected.
def third (slope x1 y1 x2 : F) : Point F :=
  let x3 := slope * slope - x1 - x2
  affine x3 (slope * (x1 - x3) - y1)

def neg : Point F → Point F
  | infinity => infinity
  | affine x y => affine x (-y)

def add : Point F → Point F → Point F
  | infinity, q => q
  | p, infinity => p
  | affine x1 y1, affine x2 y2 =>
    match slope? x1 y1 x2 y2 with
    | none => infinity
    | some slope => third slope x1 y1 x2

-- The sum of `n` copies of a point.
def multiple (n : Nat) (p : Point F) : Point F := binaryPower add infinity p n

end Point

end NativeContracts
