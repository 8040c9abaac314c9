import NativeContracts.Json.Number
import Mathlib.Algebra.Group.Nat.Defs

namespace NativeContracts.Json

-- JSON text as its grammar has it: what a text must look like, with no regard to how it is read.
-- Every text here stands alone, so that texts are put together by appending.

def Blanks (text : List Char) : Prop := ∀ c ∈ text, c ∈ [' ', '\t', '\n', '\r']

section Strings

-- One hexadecimal digit in either case.
def HexDigit (n : Nat) (c : Char) : Prop :=
  n < 16 ∧ (c = n.digitChar ∨ c = n.digitChar.toUpper)

-- Four of them, and the number that they make.
inductive HexUnit : List Char → Nat → Prop
  | mk {a b c d : Char} {w x y z : Nat} (ha : HexDigit w a) (hb : HexDigit x b)
      (hc : HexDigit y c) (hd : HexDigit z d) :
      HexUnit [a, b, c, d] (w * 16 ^ 3 + x * 16 ^ 2 + y * 16 + z)

-- The letters that may follow a backslash, each with the character it stands for.
def escapes : List (Char × Char) :=
  [('"', '"'), ('\\', '\\'), ('/', '/'), ('b', '\x08'), ('f', '\x0c'), ('n', '\n'), ('r', '\r'),
   ('t', '\t')]

-- Characters that stand for themselves.
def Plain (c : Char) : Prop := ' ' ≤ c ∧ c ≠ '"' ∧ c ≠ '\\'

instance (c : Char) : Decidable (Plain c) :=
  inferInstanceAs (Decidable (' ' ≤ c ∧ c ≠ '"' ∧ c ≠ '\\'))

-- What stands between the quotes of a string.
inductive Body : List Char → Prop
  | nil : Body []
  | plain {c : Char} {text : List Char} (hc : Plain c) (h : Body text) : Body (c :: text)
  | escape {letter c : Char} {text : List Char} (hletter : (letter, c) ∈ escapes)
      (h : Body text) : Body ('\\' :: letter :: text)
  | unit {digits text : List Char} {n : Nat} (hdigits : HexUnit digits n) (h : Body text) :
      Body ('\\' :: 'u' :: digits ++ text)

-- The characters that it stands for. Beyond 16 bits a character takes a pair of units, and a half
-- of such a pair stands for nothing on its own: no character has its number.
inductive Spells : List Char → List Char → Prop
  | nil : Spells [] []
  | plain {c : Char} {text chars : List Char} (hc : Plain c) (h : Spells text chars) :
      Spells (c :: text) (c :: chars)
  | escape {letter c : Char} {text chars : List Char} (hletter : (letter, c) ∈ escapes)
      (h : Spells text chars) : Spells ('\\' :: letter :: text) (c :: chars)
  | unit {digits text chars : List Char} {c : Char} (hdigits : HexUnit digits c.toNat)
      (h : Spells text chars) : Spells ('\\' :: 'u' :: digits ++ text) (c :: chars)
  | pair {digits digits' text chars : List Char} {c : Char} {high low : Nat}
      (hhigh : high < 2 ^ 10) (hlow : low < 2 ^ 10) (hdigits : HexUnit digits (0xd800 + high))
      (hdigits' : HexUnit digits' (0xdc00 + low))
      (hc : c.toNat = 0x10000 + high * 2 ^ 10 + low) (h : Spells text chars) :
      Spells ('\\' :: 'u' :: digits ++ '\\' :: 'u' :: digits' ++ text) (c :: chars)

end Strings

section Numbers

def Digits (text : List Char) : Prop := text ≠ [] ∧ ∀ c ∈ text, c.isDigit

-- A zero in front of other digits is not allowed.
def Whole (text : List Char) : Prop := Digits text ∧ (text.head? = some '0' → text = ['0'])

inductive Fraction : Option (List Char) → List Char → Prop
  | none : Fraction none []
  | some {digits : List Char} (h : Digits digits) : Fraction (some digits) ('.' :: digits)

inductive Exponent : Option (Bool × List Char) → List Char → Prop
  | none : Exponent none []
  | bare {e : Char} {digits : List Char} (he : e = 'e' ∨ e = 'E') (h : Digits digits) :
      Exponent (some (false, digits)) (e :: digits)
  | plus {e : Char} {digits : List Char} (he : e = 'e' ∨ e = 'E') (h : Digits digits) :
      Exponent (some (false, digits)) (e :: '+' :: digits)
  | minus {e : Char} {digits : List Char} (he : e = 'e' ∨ e = 'E') (h : Digits digits) :
      Exponent (some (true, digits)) (e :: '-' :: digits)

def signText (negative : Bool) : List Char := if negative then ['-'] else []

inductive Literal.Written : Literal → List Char → Prop
  | mk {negative : Bool} {whole fractionText exponentText : List Char}
      {fraction : Option (List Char)} {exponent : Option (Bool × List Char)}
      (hwhole : Whole whole) (hfraction : Fraction fraction fractionText)
      (hexponent : Exponent exponent exponentText) :
      Written ⟨negative, whole, fraction, exponent⟩
        (signText negative ++ whole ++ fractionText ++ exponentText)

end Numbers

section Values

-- A text with blanks around it.
structure Item where
  before : List Char
  value : List Char
  after : List Char

-- A member of an object: a quoted key, a colon and a text, with blanks around each of them.
structure Entry where
  before : List Char
  key : List Char
  between : List Char
  item : Item

def Item.text (item : Item) : List Char := item.before ++ item.value ++ item.after

def Item.Spaced (item : Item) : Prop := Blanks item.before ∧ Blanks item.after

def Entry.text (entry : Entry) : List Char :=
  entry.before ++ '"' :: entry.key ++ '"' :: entry.between ++ ':' :: entry.item.text

def Entry.Spaced (entry : Entry) : Prop :=
  Blanks entry.before ∧ Blanks entry.between ∧ entry.item.Spaced

def booleanText (value : Bool) : List Char :=
  if value then ['t', 'r', 'u', 'e'] else ['f', 'a', 'l', 's', 'e']

-- Texts with commas between them. Where there are none, blanks may stand.
inductive Sequence : List (List Char) → List Char → Prop
  | none {blanks : List Char} (h : Blanks blanks) : Sequence [] blanks
  | one (first : List Char) : Sequence [first] first
  | more {first next text : List Char} {rest : List (List Char)}
      (h : Sequence (next :: rest) text) : Sequence (first :: next :: rest) (first ++ ',' :: text)

inductive Value : List Char → Prop
  | word {text : List Char}
      (h : text ∈ [['n', 'u', 'l', 'l'], ['t', 'r', 'u', 'e'], ['f', 'a', 'l', 's', 'e']]) :
      Value text
  | string {body : List Char} (h : Body body) : Value ('"' :: body ++ ['"'])
  | number {literal : Literal} {text : List Char} (h : literal.Written text) : Value text
  | array {items : List Item} {text : List Char} (hsequence : Sequence (items.map Item.text) text)
      (hspaced : ∀ item ∈ items, item.Spaced) (hvalue : ∀ item ∈ items, Value item.value) :
      Value ('[' :: text ++ [']'])
  | object {entries : List Entry} {text : List Char}
      (hsequence : Sequence (entries.map Entry.text) text)
      (hspaced : ∀ entry ∈ entries, entry.Spaced) (hkey : ∀ entry ∈ entries, Body entry.key)
      (hvalue : ∀ entry ∈ entries, Value entry.item.value) : Value ('\x7b' :: text ++ ['\x7d'])

end Values

end NativeContracts.Json
