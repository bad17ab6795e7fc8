import SyntaxExport.Text.Hex

/-!
# String literals

Quotes, backslashes and control characters are escaped, so a literal ends at its own closing quote
and holds no line break.
-/

namespace SyntaxExport

/-- The control characters of the two control blocks. -/
def isControl (c : Char) : Bool :=
  c.toNat < 0x20 || (0x7f ≤ c.toNat && c.toNat < 0xa0)

/-- How a character is written inside a literal. -/
def escapeChar (c : Char) : List Char :=
  if c = '"' then ['\\', '"']
  else if c = '\\' then ['\\', '\\']
  else if c = '\n' then ['\\', 'n']
  else if c = '\r' then ['\\', 'r']
  else if c = '\t' then ['\\', 't']
  else if isControl c then '\\' :: 'u' :: Hex.fourDigits c.toNat
  else [c]

/-- The inside of the literal of a text. -/
def escape (s : String) : String :=
  String.ofList (s.toList.flatMap escapeChar)

/-- The literal of a text, with its quotes. -/
def quoted (s : String) : String :=
  "\"" ++ escape s ++ "\""

end SyntaxExport
