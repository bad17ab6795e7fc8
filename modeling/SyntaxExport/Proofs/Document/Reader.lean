import SyntaxExport.Document.Text

/-!
# A reader of document texts

`Reader.read?` reads the whole of a text. For the plain dialect it is a reader of JSON, with every form
of whitespace, escape and number, that keeps the order and the repetitions of fields; the other
dialect adds tuples and variants in their own brackets. A number is read as the pair of a mantissa and
a power of ten.

The reader knows nothing of the writer. Its fuel bounds the nesting of values; the length of the text
is enough.
-/

namespace SyntaxExport

/-- A value without parts, as far as a text tells. -/
inductive Literal where
  | null
  | boolean (b : Bool)
  /-- The number `mantissa * 10 ^ exponent`. -/
  | number (mantissa exponent : Int)
  | string (s : String)
  /-- A variant without an argument. -/
  | simple (tag : String)
  deriving DecidableEq, Repr

namespace Reader

/-- What is read at the front of a text, and the text after it. -/
abbrev Front (α : Type) := Option (α × List Char)

def isSpace (c : Char) : Bool :=
  c = ' ' || c = '\n' || c = '\t' || c = '\r'

/-- The text after the whitespace at its front. -/
def skip (s : List Char) : List Char :=
  s.dropWhile isSpace

/-! ### Strings -/

/-- The number with four hexadecimal digits. -/
def hex? (a b c d : Char) : Option Nat :=
  match Hex.digit? a, Hex.digit? b, Hex.digit? c, Hex.digit? d with
  | some a, some b, some c, some d => some (((a * 16 + b) * 16 + c) * 16 + d)
  | _, _, _, _ => none

/-- The second half of a character beyond the basic plane, whose first half is `high`. -/
def low? (high : Nat) : List Char → Front Char
  | '\\' :: 'u' :: a :: b :: c :: d :: rest =>
    match hex? a b c d with
    | none => none
    | some low =>
      if 0xdc00 ≤ low ∧ low < 0xe000 then
        some (Char.ofNat (0x10000 + (high - 0xd800) * 0x400 + (low - 0xdc00)), rest)
      else none
  | _ => none

/-- The character that is written as a backslash and `c`. -/
def escaped? : Char → Option Char
  | '"' => some '"'
  | '\\' => some '\\'
  | '/' => some '/'
  | 'b' => some '\x08'
  | 'f' => some '\x0c'
  | 'n' => some '\n'
  | 'r' => some '\r'
  | 't' => some '\t'
  | _ => none

/-- One character of a string, which may be escaped. -/
def char? : List Char → Front Char
  | '\\' :: 'u' :: a :: b :: c :: d :: rest =>
    match hex? a b c d with
    | none => none
    | some n =>
      if 0xd800 ≤ n ∧ n < 0xdc00 then low? n rest
      else if 0xdc00 ≤ n ∧ n < 0xe000 then none
      else some (Char.ofNat n, rest)
  | '\\' :: c :: rest => (escaped? c).map (·, rest)
  | c :: rest => if c = '"' ∨ c = '\\' ∨ c.toNat < 0x20 then none else some (c, rest)
  | [] => none

/-- The characters of a string up to its closing quote. -/
def chars? : Nat → List Char → Front (List Char)
  | 0, _ => none
  | n + 1, s =>
    match s with
    | '"' :: rest => some ([], rest)
    | s =>
      match char? s with
      | none => none
      | some (c, rest) =>
        match chars? n rest with
        | none => none
        | some (cs, rest) => some (c :: cs, rest)

/-- A string after its opening quote. -/
def string? (s : List Char) : Front String :=
  (chars? (s.length + 1) s).map fun (cs, rest) => (String.ofList cs, rest)

/-! ### Numbers -/

/-- One digit or more. -/
def digits? (s : List Char) : Front (List Char) :=
  match s.takeWhile Char.isDigit with
  | [] => none
  | ds => some (ds, s.dropWhile Char.isDigit)

/-- The digits in front of the point, which begin with zero in no number but zero itself. -/
def whole? (s : List Char) : Front (List Char) :=
  match digits? s with
  | some ('0' :: _ :: _, _) => none
  | x => x

/-- The digits after the point, if there is one. -/
def fraction? : List Char → Front (List Char)
  | '.' :: rest => digits? rest
  | s => some ([], s)

/-- A power of ten after its mark. -/
def power? : List Char → Front Int
  | '-' :: rest => (digits? rest).map fun (ds, rest) => (-(Nat.ofDigitChars 10 ds 0 : Int), rest)
  | '+' :: rest => (digits? rest).map fun (ds, rest) => ((Nat.ofDigitChars 10 ds 0 : Int), rest)
  | s => (digits? s).map fun (ds, rest) => ((Nat.ofDigitChars 10 ds 0 : Int), rest)

/-- The power of ten, if there is one. -/
def exponent? : List Char → Front Int
  | 'e' :: rest => power? rest
  | 'E' :: rest => power? rest
  | s => some (0, s)

/-- A number without its sign. -/
def unsigned? (s : List Char) : Front (Nat × Int) :=
  match whole? s with
  | none => none
  | some (ds, rest) =>
    match fraction? rest with
    | none => none
    | some (fs, rest) =>
      match exponent? rest with
      | none => none
      | some (e, rest) => some ((Nat.ofDigitChars 10 (ds ++ fs) 0, e - fs.length), rest)

def number? : List Char → Front Literal
  | '-' :: rest => (unsigned? rest).map fun ((m, e), rest) => (.number (-m) e, rest)
  | s => (unsigned? s).map fun ((m, e), rest) => (.number m e, rest)

/-- A number or one of the three words. -/
def literal? : List Char → Front Literal
  | 't' :: 'r' :: 'u' :: 'e' :: rest => some (.boolean true, rest)
  | 'f' :: 'a' :: 'l' :: 's' :: 'e' :: rest => some (.boolean false, rest)
  | 'n' :: 'u' :: 'l' :: 'l' :: rest => some (.null, rest)
  | s => number? s

/-! ### Values -/

mutual

/-- A value, after whitespace. -/
def value? (d : Dialect) : Nat → List Char → Front (Tree Literal)
  | 0, _ => none
  | n + 1, s =>
    match skip s with
    | '"' :: rest => (string? rest).map fun (s, rest) => (.leaf (.string s), rest)
    | '\x7b' :: rest =>
      match skip rest with
      | '\x7d' :: rest => some (.object [], rest)
      | rest => (fields? d n rest).map fun (fs, rest) => (.object fs, rest)
    | '[' :: rest =>
      match skip rest with
      | ']' :: rest => some (.array [], rest)
      | rest => (items? d ']' n rest).map fun (ts, rest) => (.array ts, rest)
    | '(' :: rest =>
      if d = .json then none
      else
        match skip rest with
        | ')' :: rest => some (.tuple [], rest)
        | rest => (items? d ')' n rest).map fun (ts, rest) => (.tuple ts, rest)
    | '<' :: rest => if d = .json then none else variant? d n rest
    | s => (literal? s).map fun (x, rest) => (.leaf x, rest)

/-- The elements of an array or tuple up to its bracket, of which there is one at least. -/
def items? (d : Dialect) (bracket : Char) : Nat → List Char → Front (List (Tree Literal))
  | 0, _ => none
  | n + 1, s =>
    match value? d n s with
    | none => none
    | some (t, rest) =>
      match skip rest with
      | [] => none
      | c :: rest =>
        if c = ',' then (items? d bracket n rest).map fun (ts, rest) => (t :: ts, rest)
        else if c = bracket then some ([t], rest)
        else none

/-- The fields of an object up to its bracket, of which there is one at least. -/
def fields? (d : Dialect) : Nat → List Char → Front (List (String × Tree Literal))
  | 0, _ => none
  | n + 1, s =>
    match skip s with
    | '"' :: rest =>
      match string? rest with
      | none => none
      | some (name, rest) =>
        match skip rest with
        | ':' :: rest =>
          match value? d n rest with
          | none => none
          | some (t, rest) =>
            match skip rest with
            | ',' :: rest => (fields? d n rest).map fun (fs, rest) => ((name, t) :: fs, rest)
            | '\x7d' :: rest => some ([(name, t)], rest)
            | _ => none
        | _ => none
    | _ => none

/-- A variant after its opening bracket. -/
def variant? (d : Dialect) : Nat → List Char → Front (Tree Literal)
  | 0, _ => none
  | n + 1, s =>
    match skip s with
    | '"' :: rest =>
      match string? rest with
      | none => none
      | some (tag, rest) =>
        match skip rest with
        | '>' :: rest => some (.leaf (.simple tag), rest)
        | ':' :: rest =>
          match value? d n rest with
          | none => none
          | some (t, rest) =>
            match skip rest with
            | '>' :: rest => some (.variant tag t, rest)
            | _ => none
        | _ => none
    | _ => none

end

/-- The value that a whole text is, with nothing around it but whitespace. -/
def read? (d : Dialect) (text : String) : Option (Tree Literal) :=
  match value? d (text.toList.length + 1) text.toList with
  | none => none
  | some (t, rest) => if skip rest = [] then some t else none

theorem read?_of_value? {d : Dialect} {text : String} {t : Tree Literal} {rest : List Char}
    (h : value? d (text.toList.length + 1) text.toList = some (t, rest)) (hrest : skip rest = []) :
    read? d text = some t := by
  rw [read?, h]
  exact if_pos hrest

end Reader

end SyntaxExport
