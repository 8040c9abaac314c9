import NativeContracts.Bytes.Hex
import NativeContracts.Text.Escaped

-- Text between double quotes, with everything escaped that does not show.

namespace NativeContracts.Text

def escapedChar (c : Char) : List Char :=
  if c = '\x00' then ['\\', '0']
  else if c = '\t' then ['\\', 't']
  else if c = '\r' then ['\\', 'r']
  else if c = '\n' then ['\\', 'n']
  else if c = '\\' ∨ c = '"' then ['\\', c]
  else if isEscaped c then ['\\', 'u', '\x7b'] ++ Hex.number c.toNat ++ ['\x7d']
  else [c]

def quoted (text : List Char) : List Char := '"' :: text.flatMap escapedChar ++ ['"']

-- A quote and an accent that joins the letter before it are escaped; a letter of its own is not.
example : quoted ['"', 'e', '\u0301', 'é'] = "\"\\\"e\\u\x7b301\x7dé\"".toList := by decide +kernel

end NativeContracts.Text
