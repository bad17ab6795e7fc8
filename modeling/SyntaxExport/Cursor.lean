import SyntaxExport.Ast.Location

/-!
# Relative locations

A location is written relative to the one before it in the same document: the file where it changes,
the line where the file or the line changes, the column always.
-/

namespace SyntaxExport

/-- The last location that was written, as far as later ones depend on it. -/
structure LocationCursor where
  file : Option FileId := none
  line : Option Nat := none
  deriving DecidableEq, Repr, Inhabited

/-- A location relative to a cursor. -/
inductive LocationDelta where
  | absent
  | column (column : Nat)
  | line (line column : Nat)
  | file (file : FileId) (line column : Nat)
  deriving DecidableEq, Repr

namespace LocationCursor

/-- The relative form of a location. -/
def delta (c : LocationCursor) : Option SourceLocation → LocationDelta
  | none => .absent
  | some loc =>
    if c.file ≠ some loc.file then .file loc.file loc.line loc.column
    else if c.line ≠ some loc.line then .line loc.line loc.column
    else .column loc.column

/-- The cursor after a location. An absent location leaves it where it is. -/
def advance (c : LocationCursor) : Option SourceLocation → LocationCursor
  | none => c
  | some loc => ⟨some loc.file, some loc.line⟩

end LocationCursor

namespace LocationDelta

/-- The number of fields a relative location is written with. -/
def fieldCount : LocationDelta → Nat
  | .absent => 0
  | .column _ => 1
  | .line _ _ => 2
  | .file _ _ _ => 3

end LocationDelta

end SyntaxExport
