import NativeContracts.Json.Number
import NativeContracts.Json.Text

-- Passing over a value of which only the form counts.

namespace NativeContracts.Json

-- What is enough fuel for a text: the functions read a character in every second call at least.
def fuelFor (text : List Char) : Nat := 2 * text.length + 2

-- The text after one value, after the elements of an array, after the members of an object. The
-- fuel bounds how deep the functions call each other.
mutual

def skipValueWith : Nat → List Char → Option (List Char)
  | 0, _ => none
  | fuel + 1, text =>
    match skipBlanks text with
    | [] => none
    | 'n' :: rest => afterWord? ['u', 'l', 'l'] rest
    | 't' :: rest => afterWord? ['r', 'u', 'e'] rest
    | 'f' :: rest => afterWord? ['a', 'l', 's', 'e'] rest
    | '"' :: rest => skipString rest
    | '[' :: rest =>
      match skipBlanks rest with
      | ']' :: rest => some rest
      | rest => skipElementsWith fuel rest
    | '\x7b' :: rest =>
      match skipBlanks rest with
      | '\x7d' :: rest => some rest
      | rest => skipMembersWith fuel rest
    | c :: rest => if startsNumber c then (readNumber? (c :: rest)).map (·.2) else none

def skipElementsWith : Nat → List Char → Option (List Char)
  | 0, _ => none
  | fuel + 1, text =>
    match skipValueWith fuel text with
    | none => none
    | some rest =>
      match skipBlanks rest with
      | ']' :: rest => some rest
      | ',' :: rest => skipElementsWith fuel rest
      | _ => none

def skipMembersWith : Nat → List Char → Option (List Char)
  | 0, _ => none
  | fuel + 1, text =>
    match skipBlanks text with
    | '"' :: rest =>
      match skipString rest with
      | none => none
      | some rest =>
        match skipBlanks rest with
        | ':' :: rest =>
          match skipValueWith fuel rest with
          | none => none
          | some rest =>
            match skipBlanks rest with
            | '\x7d' :: rest => some rest
            | ',' :: rest => skipMembersWith fuel rest
            | _ => none
        | _ => none
    | _ => none

end

end NativeContracts.Json
