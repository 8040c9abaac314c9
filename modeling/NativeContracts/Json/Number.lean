-- Numbers in JSON text: their form, and the value that a reader of 64-bit numbers gives them.

namespace NativeContracts.Json

def isDigit (c : Char) : Bool := '0' ≤ c && c ≤ '9'

-- A number as it is written. The fraction and the exponent, where they stand, have a digit.
structure Literal where
  negative : Bool
  whole : List Char
  fraction : Option (List Char)
  exponent : Option (Bool × List Char)
deriving DecidableEq

-- A run of digits, and what follows; none if there is no digit.
def readDigits? (text : List Char) : Option (List Char × List Char) :=
  match text.takeWhile isDigit with
  | [] => none
  | digits => some (digits, text.dropWhile isDigit)

-- No digit follows a leading zero.
def readWhole? (text : List Char) : Option (List Char × List Char) := do
  let (digits, rest) ← readDigits? text
  match digits with
  | '0' :: _ :: _ => none
  | _ => some (digits, rest)

def readFraction? : List Char → Option (Option (List Char) × List Char)
  | '.' :: rest => do
    let (digits, rest) ← readDigits? rest
    return (some digits, rest)
  | text => some (none, text)

def readSign : List Char → Bool × List Char
  | '-' :: rest => (true, rest)
  | '+' :: rest => (false, rest)
  | text => (false, text)

def readExponent? : List Char → Option (Option (Bool × List Char) × List Char)
  | [] => some (none, [])
  | c :: rest =>
    if c = 'e' ∨ c = 'E' then do
      let (negative, rest) := readSign rest
      let (digits, rest) ← readDigits? rest
      return (some (negative, digits), rest)
    else some (none, c :: rest)

def readNumber? (text : List Char) : Option (Literal × List Char) := do
  let (negative, text) :=
    match text with
    | '-' :: rest => (true, rest)
    | text => (false, text)
  let (whole, text) ← readWhole? text
  let (fraction, text) ← readFraction? text
  let (exponent, text) ← readExponent? text
  return (⟨negative, whole, fraction, exponent⟩, text)

-- Whether a number can start here.
def startsNumber (c : Char) : Bool := c = '-' || isDigit c

inductive Number
  | natural (n : Nat)
  | negative (n : Nat)
  | floating (x : Float)

def digitValue (c : Char) : Nat := c.toNat - 48

-- As many leading digits as fit in `limit` together with `acc`, and how many are left over.
def takeFitting (limit : Nat) : Nat → List Char → Nat × Nat
  | acc, [] => (acc, 0)
  | acc, c :: digits =>
    let next := acc * 10 + digitValue c
    if next ≤ limit then takeFitting limit next digits else (acc, digits.length + 1)

-- The largest significand, and the largest exponent that is worked out.
def significandLimit : Nat := 18446744073709551615

def exponentLimit : Nat := 2147483647

def clampExponent (e : Int) : Int := max (-2147483648) (min e 2147483647)

def powerOfTen (n : Nat) : Float := Float.ofScientific 1 false n

-- A significand times a power of ten, in one or two rounded steps; none past the largest float.
-- Powers of ten beyond 10³⁰⁸ are no floats: a small number is divided twice, and one that is
-- smaller still is zero.
def scale? (significand : Nat) (exponent : Int) : Option Float :=
  let x := significand.toUInt64.toFloat
  if significand = 0 then some 0
  else if 308 < exponent then none
  else if 0 ≤ exponent then
    let y := x * powerOfTen exponent.toNat
    if y.isInf then none else some y
  else if -308 ≤ exponent then some (x / powerOfTen exponent.natAbs)
  else if -616 ≤ exponent then some (x / powerOfTen 308 / powerOfTen (exponent.natAbs - 308))
  else some 0

namespace Literal

def isInteger (literal : Literal) : Bool :=
  literal.fraction.isNone && literal.exponent.isNone

-- Digits are taken into the significand while it fits in 64 bits. Those left over before the
-- point raise the exponent; after the point, each one taken lowers it. Returns the significand
-- and the exponent that goes with it.
def significand (literal : Literal) : Nat × Int :=
  let (whole, left) := takeFitting significandLimit 0 literal.whole
  let fraction := literal.fraction.getD []
  let (all, cut) := takeFitting significandLimit whole fraction
  (all, left + ((cut : Int) - fraction.length))

-- The size of the number as a float. An exponent of more than 31 bits leaves only zero, or
-- nothing.
def magnitude? (literal : Literal) : Option Float :=
  let (significand, start) := literal.significand
  match literal.exponent with
  | none => scale? significand start
  | some (negative, digits) =>
    let (exponent, left) := takeFitting exponentLimit 0 digits
    if left ≠ 0 then if significand ≠ 0 ∧ !negative then none else some 0
    else
      let exponent := if negative then start - exponent else start + exponent
      scale? significand (clampExponent exponent)

-- The value: an integer where 64 bits hold it, else a float. None for a number past the floats.
def value? (literal : Literal) : Option Number :=
  let (n, left) := takeFitting significandLimit 0 literal.whole
  if literal.isInteger ∧ left = 0 ∧ !literal.negative then some (.natural n)
  else if literal.isInteger ∧ left = 0 ∧ 0 < n ∧ n ≤ 9223372036854775808 then some (.negative n)
  else literal.magnitude?.map fun x => .floating (if literal.negative then -x else x)

end Literal

end NativeContracts.Json
