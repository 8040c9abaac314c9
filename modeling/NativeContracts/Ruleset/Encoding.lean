import NativeContracts.Ruleset.Decoding

-- Writing a rule set as JSON text: an object of all fields in order, without blanks.

namespace NativeContracts.Ruleset

def wordText (value : Bool) : List Char :=
  if value then ['t', 'r', 'u', 'e'] else ['f', 'a', 'l', 's', 'e']

def Field.valueText (field : Field) (r : Ruleset) : List Char :=
  match field with
  | chainId => Nat.toDigits 10 r.chainId.toNat
  | flag fork => wordText (r.active fork)

-- The key holds letters and digits only, so it needs no escapes.
def Field.memberText (field : Field) (r : Ruleset) : List Char :=
  '"' :: field.key.toList ++ '"' :: ':' :: field.valueText r

-- The members with commas between them.
def membersText (r : Ruleset) : List Field → List Char
  | [] => []
  | [field] => field.memberText r
  | field :: fields => field.memberText r ++ ',' :: membersText r fields

def encode (r : Ruleset) : List Char := '\x7b' :: membersText r Field.all ++ ['\x7d']

end NativeContracts.Ruleset
