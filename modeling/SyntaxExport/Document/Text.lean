import SyntaxExport.Document.Escape
import SyntaxExport.Document.Writer

/-!
# Documents as text

| shape               | plain          | with variants  |
|---------------------|----------------|----------------|
| object              | `{"f":v}`      | `{"f":v}`      |
| array               | `[a,b]`        | `[a,b]`        |
| tuple               | `[a,b]`        | `(a,b)`        |
| variant             | `["Tag",a]`    | `<"Tag":a>`    |
| variant, no argument| `"Tag"`        | `<"Tag">`      |

Pretty text puts each field and each element on a line of its own, indented by two spaces for each
object, array or tuple around it. A variant stays on the line of its argument.

`TextState.call` gives the text of one call, which depends on the open scopes and the indentation.
-/

namespace SyntaxExport

/-- The dialects of the text. -/
inductive Dialect where
  /-- Tuples and variants are arrays, variants without an argument are strings. -/
  | json
  /-- Tuples and variants have brackets of their own. -/
  | yojson
  deriving DecidableEq, Repr, Inhabited

/-- How text is laid out. -/
structure TextFormat where
  dialect : Dialect := .json
  pretty : Bool := false
  deriving DecidableEq, Repr, Inhabited

namespace TextFormat

/-- A line break and the indentation of the next line. -/
def newline (f : TextFormat) (indent : Nat) : String :=
  if f.pretty then "\n" ++ String.join (List.replicate indent "  ") else ""

/-- What separates a value from what stands before it. -/
def separator (f : TextFormat) (indent : Nat) (slot : Slot) : String :=
  if slot.container = .array ∨ slot.container = .tuple then
    (if slot.index > 0 then "," else "") ++ f.newline indent
  else ""

def opener (f : TextFormat) : Shape → String
  | .object => "\x7b"
  | .array => "["
  | .tuple =>
    match f.dialect with
    | .json => "["
    | .yojson => "("

def closer (f : TextFormat) : ScopeKind → String
  | .object => "\x7d"
  | .array => "]"
  | .tuple =>
    match f.dialect with
    | .json => "]"
    | .yojson => ")"
  | .variant =>
    match f.dialect with
    | .json => "]"
    | .yojson => ">"
  | .document => ""

/-- The start of a variant, up to its argument. -/
def variantStart (f : TextFormat) (tag : String) : String :=
  (match f.dialect with
    | .json => "[" ++ quoted tag ++ ","
    | .yojson => "<" ++ quoted tag ++ ":")
    ++ (if f.pretty then " " else "")

/-- A field tag, up to its value. -/
def fieldStart (f : TextFormat) (name : String) : String :=
  quoted name ++ (if f.pretty then ": " else ":")

def scalar (f : TextFormat) : Scalar → String
  | .string s => quoted s
  | .integer i => toString i
  | .unsigned n => toString n
  | .boolean b => if b then "true" else "false"
  | .simple tag =>
    match f.dialect with
    | .json => quoted tag
    | .yojson => "<" ++ quoted tag ++ ">"

end TextFormat

/-- What the text of the next call depends on. -/
structure TextState where
  scopes : ScopeStack := {}
  /-- The number of open objects, arrays and tuples. -/
  indent : Nat := 0
  deriving DecidableEq, Repr, Inhabited

namespace TextState

/-- The text of a call and the state after it. -/
def call (f : TextFormat) (s : TextState) : Call → Except WriteError (String × TextState)
  | .container shape arity =>
    match s.scopes.enter shape.scope arity with
    | .error e => .error e
    | .ok (slot, scopes) =>
      .ok (f.separator s.indent slot ++ f.opener shape, ⟨scopes, s.indent + 1⟩)
  | .variant tag =>
    match s.scopes.enter .variant 1 with
    | .error e => .error e
    | .ok (slot, scopes) =>
      .ok (f.separator s.indent slot ++ f.variantStart tag, ⟨scopes, s.indent⟩)
  | .close =>
    match s.scopes.close with
    | .error e => .error e
    | .ok (frame, scopes) =>
      if frame.kind = .variant then .ok (f.closer frame.kind, ⟨scopes, s.indent⟩)
      else
        let indent := s.indent - 1
        .ok ((if frame.arity > 0 then f.newline indent else "") ++ f.closer frame.kind,
          ⟨scopes, indent⟩)
  | .tag name =>
    match s.scopes.tag with
    | .error e => .error e
    | .ok (index, scopes) =>
      .ok ((if index > 0 then "," else "") ++ f.newline s.indent ++ f.fieldStart name,
        ⟨scopes, s.indent⟩)
  | .leaf x =>
    match s.scopes.value with
    | .error e => .error e
    | .ok (slot, scopes) => .ok (f.separator s.indent slot ++ f.scalar x, ⟨scopes, s.indent⟩)

/-- The text at the end of a document and the state after it. -/
def finish (f : TextFormat) (s : TextState) : Except WriteError (String × TextState) :=
  match s.scopes.finish with
  | .error e => .error e
  | .ok scopes => .ok (if f.pretty then "\n" else "", { s with scopes := scopes })

end TextState

end SyntaxExport
