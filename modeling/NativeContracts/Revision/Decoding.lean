import NativeContracts.Json.Reader
import NativeContracts.Revision

-- A revision in JSON text: its name in capitals as a string, or an object whose only key is that
-- name, with the value null.

namespace NativeContracts.Revision

open Json

def ofChars (name : List Char) : Except DecodeFault Revision :=
  match ofCapitals? (String.ofList name) with
  | some revision => .ok revision
  | none => .error (.unknownVariant (String.ofList name) (all.map capitals))

def readName : Reader Revision := fun text =>
  match readString text with
  | none => .error .malformed
  | some (name, rest) => do
    let revision ← ofChars name
    return (revision, rest)

def readNull : Reader Unit := fun text =>
  match skipBlanks text with
  | 'n' :: rest =>
    match afterWord? ['u', 'l', 'l'] rest with
    | some rest => .ok ((), rest)
    | none => .error .malformed
  | text => .error (unexpected text .unit)

-- The key must be a string, and the name in it is judged before the colon is looked for.
def readEntry : Reader Revision := fun text =>
  match skipBlanks text with
  | '"' :: rest => do
    let (revision, rest) ← readName rest
    let ((), rest) ← readColon rest
    let ((), rest) ← readNull rest
    match skipBlanks rest with
    | '\x7d' :: rest => return (revision, rest)
    | _ => throw .malformed
  | _ => .error .malformed

def readRevision : Reader Revision := fun text =>
  match skipBlanks text with
  | '"' :: rest => readName rest
  | '\x7b' :: rest => readEntry rest
  | _ => .error .malformed

def decode (text : List Char) : Except DecodeFault Revision := do
  let (revision, rest) ← readRevision text
  finish rest
  return revision

-- The name in quotes; it needs no escapes.
def encode (revision : Revision) : List Char := '"' :: revision.capitals.toList ++ ['"']

end NativeContracts.Revision
