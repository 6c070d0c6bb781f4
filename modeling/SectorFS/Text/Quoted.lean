import SectorFS.Text.Printable

/-!
Names and paths inside messages: text between double quotes, with every character that would not
be seen written as an escape.
-/

namespace SectorFS.Text

/-- The code point of `c` as lowercase hexadecimal between braces. -/
def codeEscape (c : Char) : List Char :=
  ['\\', 'u', '\x7b'] ++ Nat.toDigits 16 c.toNat ++ ['\x7d']

/-- One character as it stands between the quotes. -/
def escapeChar (c : Char) : List Char :=
  if c = '\x00' then ['\\', '0']
  else if c = '\t' then ['\\', 't']
  else if c = '\n' then ['\\', 'n']
  else if c = '\r' then ['\\', 'r']
  else if c = '\x22' || c = '\\' then ['\\', c]
  else if isShown c then [c]
  else codeEscape c

def quote (text : String) : String :=
  String.ofList (['\x22'] ++ text.toList.flatMap escapeChar ++ ['\x22'])

end SectorFS.Text
