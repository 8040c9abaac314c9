import NativeContracts.Json.Reader
import NativeContracts.Json.Skipping
import NativeContracts.Ruleset

-- Reading a rule set from JSON text: an object of named fields, or an array of the fields in
-- order. What is not given keeps its default. The first fault in reading order is the answer.

namespace NativeContracts.Ruleset

open Json

inductive Field
  | chainId
  | flag (fork : Fork)
deriving DecidableEq

namespace Field

-- The order of the fields in an array and in written text.
def all : List Field := chainId :: Fork.chain.map flag

def key : Field → String
  | chainId => "chainId"
  | flag fork => fork.key

def ofKey? (key : List Char) : Option Field := all.find? fun field => field.key.toList = key

-- Reads the field's value into a rule set.
def read (field : Field) (r : Ruleset) : Reader Ruleset := fun text =>
  match field with
  | chainId => do
    let (n, rest) ← readWord64 text
    return (r.withChainId n, rest)
  | flag fork => do
    let (value, rest) ← readBoolean text
    return (r.setActive fork value, rest)

end Field

-- The elements of an array from the value of the first of `fields` on.
def readElements : List Field → Ruleset → Reader Ruleset
  | [], _, _ => .error .malformed
  | field :: fields, r, text => do
    let (r, rest) ← field.read r text
    match skipBlanks rest with
    | ']' :: rest => return (r, rest)
    | ',' :: rest => readElements fields r rest
    | _ => throw .malformed

-- What has been read of an object: the fields that were given, and the rule set they make.
structure Draft where
  seen : List Field
  ruleset : Ruleset

-- A member after its key. A field that was given already is refused at once; a key that names no
-- field is passed over with its value.
def readMember (fuel : Nat) (draft : Draft) (key : List Char) : Reader Draft := fun text =>
  match Field.ofKey? key with
  | some field =>
    if field ∈ draft.seen then .error (.duplicateField field.key)
    else do
      let ((), rest) ← readColon text
      let (r, rest) ← field.read draft.ruleset rest
      return (⟨field :: draft.seen, r⟩, rest)
  | none => do
    let ((), rest) ← readColon text
    match skipValueWith fuel rest with
    | none => throw .malformed
    | some rest => return (draft, rest)

-- The members of an object from a key on. The fuel bounds their number, and the depth of the
-- values that are passed over.
def readMembersWith : Nat → Draft → Reader Ruleset
  | 0, _, _ => .error .malformed
  | fuel + 1, draft, text =>
    match skipBlanks text with
    | '"' :: rest =>
      match readString rest with
      | none => .error .malformed
      | some (key, rest) => do
        let (draft, rest) ← readMember fuel draft key rest
        match skipBlanks rest with
        | '\x7d' :: rest => return (draft.ruleset, rest)
        | ',' :: rest => readMembersWith fuel draft rest
        | _ => throw .malformed
    | _ => .error .malformed

def readMembers : Reader Ruleset := fun text =>
  readMembersWith (fuelFor text) ⟨[], empty⟩ text

def readRuleset : Reader Ruleset := fun text =>
  match skipBlanks text with
  | '[' :: rest =>
    match skipBlanks rest with
    | ']' :: rest => .ok (empty, rest)
    | _ => readElements Field.all empty rest
  | '\x7b' :: rest =>
    match skipBlanks rest with
    | '\x7d' :: rest => .ok (empty, rest)
    | _ => readMembers rest
  | text => .error (unexpected text .ruleset)

def decode (text : List Char) : Except DecodeFault Ruleset := do
  let (r, rest) ← readRuleset text
  finish rest
  return r

end NativeContracts.Ruleset
