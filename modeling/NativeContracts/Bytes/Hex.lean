import NativeContracts.Bytes

-- Byte strings as text: `0x` and two lower-case hexadecimal digits a byte.
-- Reading takes digits of either case.

namespace NativeContracts

namespace Hex

def digit (n : Nat) : Char :=
  "0123456789abcdef".toList.getD n '0'

def digitValue? (c : Char) : Option Nat :=
  if '0' ≤ c ∧ c ≤ '9' then some (c.toNat - 48)
  else if 'a' ≤ c ∧ c ≤ 'f' then some (c.toNat - 87)
  else if 'A' ≤ c ∧ c ≤ 'F' then some (c.toNat - 55)
  else none

-- The digits of one byte, the high half first.
def ofByte (byte : UInt8) : List Char :=
  [digit (byte.toNat / 16), digit (byte.toNat % 16)]

def digits (bytes : Bytes) : List Char :=
  bytes.flatMap ofByte

-- Two digits make a byte; an odd number of digits is refused.
def bytes? : List Char → Option Bytes
  | [] => some []
  | [_] => none
  | high :: low :: rest => do
    let h ← digitValue? high
    let l ← digitValue? low
    let tail ← bytes? rest
    return UInt8.ofNat (16 * h + l) :: tail

-- A number in hexadecimal without leading zeros; zero is one digit.
def number (n : Nat) : List Char :=
  Nat.toDigits 16 n

end Hex

namespace Bytes

def toHex (bytes : Bytes) : String :=
  String.ofList ('0' :: 'x' :: Hex.digits bytes)

def ofHex? (text : String) : Option Bytes :=
  match text.toList with
  | '0' :: 'x' :: digits => Hex.bytes? digits
  | _ => none

end Bytes

end NativeContracts
