import NativeContracts.Decimal.Notation
import NativeContracts.Json.Number
import NativeContracts.Text.Quoted

-- Why JSON text cannot be read as a value of this library.

namespace NativeContracts.Json

-- What stood where something else should have.
inductive Found
  | null
  | boolean (value : Bool)
  | natural (n : Nat)
  | negative (n : Nat)
  | floating (x : Float)
  | text (chars : List Char)
  | sequence
  | map

inductive Expectation
  | boolean
  | word64
  | ruleset
  | unit

-- Text that is no JSON is `malformed`; the other faults are of JSON that means nothing here.
inductive DecodeFault
  | malformed
  | wrongType (found : Found) (expected : Expectation)
  | wrongValue (found : Found) (expected : Expectation)
  | duplicateField (key : String)
  | unknownVariant (name : String) (known : List String)

namespace Found

def describe : Found → String
  | null => "null"
  | boolean value => "boolean `" ++ (if value then "true" else "false") ++ "`"
  | natural n => "integer `" ++ toString n ++ "`"
  | negative n => "integer `-" ++ toString n ++ "`"
  | floating x => "floating point `" ++ Decimal.floatText .messages x ++ "`"
  | text chars => "string " ++ String.ofList (Text.quoted chars)
  | sequence => "sequence"
  | map => "map"

def ofNumber : Number → Found
  | .natural n => natural n
  | .negative n => negative n
  | .floating x => floating x

end Found

def Expectation.describe : Expectation → String
  | boolean => "a boolean"
  | word64 => "u64"
  | ruleset => "struct Rules"
  | unit => "unit"

namespace DecodeFault

-- The text of a fault in JSON that is well-formed as far as it was read.
def message? : DecodeFault → Option String
  | malformed => none
  | wrongType found expected =>
    some ("invalid type: " ++ found.describe ++ ", expected " ++ expected.describe)
  | wrongValue found expected =>
    some ("invalid value: " ++ found.describe ++ ", expected " ++ expected.describe)
  | duplicateField key => some ("duplicate field `" ++ key ++ "`")
  | unknownVariant name known =>
    let names := known.map fun name => "`" ++ name ++ "`"
    some ("unknown variant `" ++ name ++ "`, expected one of " ++ ", ".intercalate names)

end DecodeFault

end NativeContracts.Json
