-- Repeating an associative operation: the n-fold product of one value with itself, in as many
-- steps as the count has binary digits.

namespace NativeContracts

-- The binary digits of a number, most significant first; zero has one digit.
def binaryDigits (n : Nat) : List Bool :=
  (List.range (n.log2 + 1)).reverse.map n.testBit

variable {α : Type}

-- One digit of the count: square, then multiply by the value if the digit is set.
def binaryStep (mul : α → α → α) (x acc : α) (digit : Bool) : α :=
  let squared := mul acc acc
  if digit then mul squared x else squared

-- The product of `n` factors `x`; the empty product is `one`.
def binaryPower (mul : α → α → α) (one x : α) (n : Nat) : α :=
  (binaryDigits n).foldl (binaryStep mul x) one

end NativeContracts
