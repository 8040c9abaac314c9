import NativeContracts.Json.DecodeFault
import NativeContracts.Json.Text

-- Reading values of a known type from JSON text.

namespace NativeContracts.Json

-- What stands at the head of a text. Words, numbers and strings are read to their end; of an array
-- or an object only the bracket is looked at.
def found? (text : List Char) : Option Found :=
  match text with
  | 'n' :: rest => (afterWord? ['u', 'l', 'l'] rest).map fun _ => .null
  | 't' :: rest => (afterWord? ['r', 'u', 'e'] rest).map fun _ => .boolean true
  | 'f' :: rest => (afterWord? ['a', 'l', 's', 'e'] rest).map fun _ => .boolean false
  | '"' :: rest => (readString rest).map fun (chars, _) => .text chars
  | '[' :: _ => some .sequence
  | '\x7b' :: _ => some .map
  | c :: rest =>
    if startsNumber c then do
      let (literal, _) ← readNumber? (c :: rest)
      let number ← literal.value?
      return .ofNumber number
    else none
  | [] => none

-- The fault of a value that is of another type than expected.
def unexpected (text : List Char) (expected : Expectation) : DecodeFault :=
  match found? text with
  | some found => .wrongType found expected
  | none => .malformed

abbrev Reader (α : Type) := List Char → Except DecodeFault (α × List Char)

def readBoolean : Reader Bool := fun text =>
  match skipBlanks text with
  | 't' :: rest =>
    match afterWord? ['r', 'u', 'e'] rest with
    | some rest => .ok (true, rest)
    | none => .error .malformed
  | 'f' :: rest =>
    match afterWord? ['a', 'l', 's', 'e'] rest with
    | some rest => .ok (false, rest)
    | none => .error .malformed
  | text => .error (unexpected text .boolean)

-- An unsigned number of 64 bits, written without fraction and exponent.
def readWord64 : Reader UInt64 := fun text =>
  match skipBlanks text with
  | c :: rest =>
    if startsNumber c then
      match readNumber? (c :: rest) with
      | none => .error .malformed
      | some (literal, after) =>
        match literal.value? with
        | none => .error .malformed
        | some (.natural n) => .ok (UInt64.ofNat n, after)
        | some (.negative n) => .error (.wrongValue (.negative n) .word64)
        | some (.floating x) => .error (.wrongType (.floating x) .word64)
    else .error (unexpected (c :: rest) .word64)
  | [] => .error .malformed

-- The colon between a key and its value.
def readColon : Reader Unit := fun text =>
  match skipBlanks text with
  | ':' :: rest => .ok ((), rest)
  | _ => .error .malformed

-- Nothing but blanks is left.
def finish (text : List Char) : Except DecodeFault Unit :=
  match skipBlanks text with
  | [] => .ok ()
  | _ => .error .malformed

end NativeContracts.Json
