import NativeContracts.Curve.Bn254

-- Whether a product of pairings is one.
--
-- The pairing is the ate pairing: a function with divisor (T)Q - (TQ) - (T - 1)O, for T one less
-- than the trace, evaluated at P and raised to the power (q¹² - 1) / r. Factors in the subfield of
-- degree six vanish under that power, so vertical lines are left out.

namespace NativeContracts.Bn254

-- The extension of degree twelve: polynomials in w of degree below six, where w⁶ is the
-- nonresidue.
abbrev Fq12 := Vector Fq2 6

namespace Fq12

def one : Fq12 := #v[Fq2.one, Fq2.zero, Fq2.zero, Fq2.zero, Fq2.zero, Fq2.zero]

def coefficient (a : Fq12) (k : Nat) : Fq2 := a.getD k Fq2.zero

-- The terms of the product whose degree is k before the reduction by w⁶.
def term (a b : Fq12) (k : Nat) : Fq2 :=
  (List.range 6).foldl
    (fun sum i => if i ≤ k ∧ k < i + 6 then sum + coefficient a i * coefficient b (k - i) else sum)
    Fq2.zero

def mul (a b : Fq12) : Fq12 :=
  Vector.ofFn fun k : Fin 6 => term a b k.val + nonresidue * term a b (k.val + 6)

def power (a : Fq12) (n : Nat) : Fq12 := binaryPower mul one a n

-- Whether only even powers of w occur: the subfield of degree six.
def InSextic (a : Fq12) : Prop :=
  a.coefficient 1 = Fq2.zero ∧ a.coefficient 3 = Fq2.zero ∧ a.coefficient 5 = Fq2.zero

instance (a : Fq12) : Decidable a.InSextic := by unfold InSextic; infer_instance

end Fq12

-- The number of steps of the loop is the trace less one, which is what is left of q modulo r.
def loopCount : Nat := q % r

-- The line through (x, y) of the twist with this slope, moved to the curve by the map
-- (x, y) ↦ (w² x, w³ y) and evaluated at a point (px, py).
def line (slope x y : Fq2) (px py : Fq) : Fq12 :=
  #v[Fq2.ofFq py, -(slope * Fq2.ofFq px), Fq2.zero, slope * x - y, Fq2.zero, Fq2.zero]

-- A multiple of Q and the value at P of the function that belongs to it.
structure Progress where
  value : Fq12
  point : Point Fq2

-- Adds two points and multiplies the value by the line between them.
def Progress.join (progress : Progress) (other : Point Fq2) (px py : Fq) : Progress :=
  match progress.point, other with
  | .affine x1 y1, .affine x2 y2 =>
    match Point.slope? x1 y1 x2 y2 with
    | none => ⟨progress.value, .infinity⟩
    | some slope =>
      ⟨Fq12.mul progress.value (line slope x1 y1 px py), Point.third slope x1 y1 x2⟩
  | point, other => ⟨progress.value, Point.add point other⟩

def Progress.step (base : Point Fq2) (px py : Fq) (progress : Progress) (digit : Bool) :
    Progress :=
  let squared := { progress with value := Fq12.mul progress.value progress.value }
  let doubled := squared.join progress.point px py
  if digit then doubled.join base px py else doubled

-- The pairing before its final power. It is one where a point is infinity.
def miller (p : Point Fq) (base : Point Fq2) : Fq12 :=
  match p, base with
  | .affine px py, .affine x y =>
    ((binaryDigits loopCount).tail.foldl (Progress.step (.affine x y) px py)
      ⟨Fq12.one, .affine x y⟩).value
  | _, _ => Fq12.one

-- With g the product to the power (q⁶ + 1) / r, the full power is g to the power q⁶ - 1, which is
-- one exactly where g is in the subfield of degree six.
def productIsOne (pairs : List (Point Fq × Point Fq2)) : Bool :=
  let product := pairs.foldl (fun acc (p, base) => Fq12.mul acc (miller p base)) Fq12.one
  let exponent := (Nat.pow q 6 + 1) / r
  decide (product.power exponent).InSextic

end NativeContracts.Bn254
