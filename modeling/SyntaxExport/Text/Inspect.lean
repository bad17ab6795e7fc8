import SyntaxExport.Text.Hex
import SyntaxExport.Text.Shapeless
import SyntaxExport.Text.Utf8

/-!
# Byte strings in messages

A message shows a byte string between double quotes. Double quotes, backslashes and characters
without a shape of their own are escaped, a single quote is not, and broken bytes are shown one by
one.
-/

namespace SyntaxExport.Inspect

/-- How a character is shown. -/
def char (c : Char) : List Char :=
  if c = '\x00' then ['\\', '0']
  else if c = '\t' then ['\\', 't']
  else if c = '\r' then ['\\', 'r']
  else if c = '\n' then ['\\', 'n']
  else if c = '\\' then ['\\', '\\']
  else if c = '"' then ['\\', '"']
  else if isShapeless c then ['\\', 'u', '\x7b'] ++ Hex.digits c.toNat ++ ['\x7d']
  else [c]

/-- How a broken byte is shown: with two upper-case digits. A broken byte is never below 0x80. -/
def byte (b : UInt8) : List Char :=
  '\\' :: 'x' :: (Hex.digits b.toNat).map Char.toUpper

def piece : Utf8.Piece → List Char
  | .char c => char c
  | .broken bytes => bytes.flatMap byte

/-- A byte string between double quotes. -/
def quoted (bytes : ByteArray) : String :=
  String.ofList ('"' :: (Utf8.pieces bytes).flatMap piece ++ ['"'])

end SyntaxExport.Inspect
