import NativeContracts.Bytes
import NativeContracts.Curve.Point
import NativeContracts.Curve.Residue

-- The pairing-friendly curve y² = x³ + 3 and its sextic twist over the quadratic extension.

namespace NativeContracts.Bn254

-- The order of the field.
def q : Nat := 21888242871839275222246405745257275088696311157297823662689037894645226208583

-- The order of the groups.
def r : Nat := 21888242871839275222246405745257275088548364400416034343698204186575808495617

instance : Modulus q := ⟨by decide⟩

abbrev Fq := Residue q

def fq (n : Nat) : Fq := Residue.ofNat q n

-- Numbers re + im · i with i² = -1.
structure Fq2 where
  re : Fq
  im : Fq
deriving DecidableEq

namespace Fq2

def zero : Fq2 := ⟨fq 0, fq 0⟩

def one : Fq2 := ⟨fq 1, fq 0⟩

def ofFq (a : Fq) : Fq2 := ⟨a, fq 0⟩

def add (a b : Fq2) : Fq2 := ⟨a.re + b.re, a.im + b.im⟩

def sub (a b : Fq2) : Fq2 := ⟨a.re - b.re, a.im - b.im⟩

def neg (a : Fq2) : Fq2 := ⟨-a.re, -a.im⟩

def mul (a b : Fq2) : Fq2 :=
  ⟨a.re * b.re - a.im * b.im, a.re * b.im + a.im * b.re⟩

-- The conjugate over the norm.
def inverse (a : Fq2) : Fq2 :=
  let norm := (a.re * a.re + a.im * a.im).inverse
  ⟨a.re * norm, -(a.im * norm)⟩

instance : Add Fq2 := ⟨add⟩

instance : Sub Fq2 := ⟨sub⟩

instance : Neg Fq2 := ⟨neg⟩

instance : Mul Fq2 := ⟨mul⟩

instance : Div Fq2 := ⟨fun a b => a * b.inverse⟩

end Fq2

-- The number of which the larger extension has a sixth root.
def nonresidue : Fq2 := ⟨fq 9, fq 1⟩

def coefficient : Fq := fq 3

def twistCoefficient : Fq2 := Fq2.ofFq coefficient / nonresidue

-- What makes an encoded point unacceptable.
inductive PointFault
  | notInField
  | notInGroup
deriving DecidableEq

-- Thirty-two bytes that hold a reduced number.
def readCoordinate (input : Bytes) (start : Nat) : Except PointFault Fq :=
  match Residue.ofNat? q (input.valueAt start 32) with
  | some a => .ok a
  | none => .error .notInField

-- A point of the curve; both coordinates zero stand for infinity. The whole curve is one group
-- of prime order, so there is nothing else to check.
def readPoint (input : Bytes) (start : Nat) : Except PointFault (Point Fq) := do
  let x ← readCoordinate input start
  let y ← readCoordinate input (start + 32)
  if x = fq 0 ∧ y = fq 0 then return .infinity
  if Point.OnCurve coefficient (.affine x y) then return .affine x y
  throw .notInGroup

-- A point of the twist; of each coordinate the imaginary part comes first. The twist has points
-- outside the group, which the order tells apart.
def readTwistPoint (input : Bytes) (start : Nat) : Except PointFault (Point Fq2) := do
  let xIm ← readCoordinate input start
  let xRe ← readCoordinate input (start + 32)
  let yIm ← readCoordinate input (start + 64)
  let yRe ← readCoordinate input (start + 96)
  let x : Fq2 := ⟨xRe, xIm⟩
  let y : Fq2 := ⟨yRe, yIm⟩
  if x = Fq2.zero ∧ y = Fq2.zero then return .infinity
  let point : Point Fq2 := .affine x y
  if Point.OnCurve twistCoefficient point ∧ point.multiple r = .infinity then return point
  throw .notInGroup

def toBytes : Point Fq → Bytes
  | .infinity => Bytes.zeros 64
  | .affine x y => Bytes.ofNat 32 x.val ++ Bytes.ofNat 32 y.val

@[simp] theorem length_toBytes (point : Point Fq) : (toBytes point).length = 64 := by
  cases point <;> simp [toBytes]

end NativeContracts.Bn254
