/-!
# Hexadecimal numbers

Lower-case digits are written, either case is read. `readBelow` reads from left to right and stops
at the first thing that is wrong: a character that is no digit, or a value that reached the limit.
-/

namespace SyntaxExport.Hex

/-- The value of a hexadecimal digit of either case. -/
def digit? (c : Char) : Option Nat :=
  if '0' ≤ c ∧ c ≤ '9' then some (c.toNat - '0'.toNat)
  else if 'a' ≤ c ∧ c ≤ 'f' then some (c.toNat - 'a'.toNat + 10)
  else if 'A' ≤ c ∧ c ≤ 'F' then some (c.toNat - 'A'.toNat + 10)
  else none

/-- The lower-case digits of a number. -/
def digits (n : Nat) : List Char :=
  Nat.toDigits 16 n

/-- A number with leading zeros up to a width of four digits. -/
def fourDigits (n : Nat) : List Char :=
  List.replicate (4 - (digits n).length) '0' ++ digits n

/-- Why a text is no number. -/
inductive ReadError where
  | empty
  | invalidDigit
  | tooLarge
  deriving DecidableEq, Repr

/-- Reads the digits after those that gave `acc`, as a number below `limit`. -/
def readDigits (limit : Nat) : Nat → List Char → Except ReadError Nat
  | acc, [] => .ok acc
  | acc, c :: rest =>
    match digit? c with
    | none => .error .invalidDigit
    | some d =>
      if acc * 16 + d < limit then readDigits limit (acc * 16 + d) rest else .error .tooLarge

/-- Reads a number below `limit`, after at most one plus sign. -/
def readBelow (limit : Nat) : List Char → Except ReadError Nat
  | [] => .error .empty
  | ['+'] => .error .invalidDigit
  | '+' :: rest => readDigits limit 0 rest
  | s => readDigits limit 0 s

end SyntaxExport.Hex
