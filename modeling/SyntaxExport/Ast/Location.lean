import SyntaxExport.Ast.Id

/-!
# Source locations

An absent location is `none`; lines and columns count from one.
-/

namespace SyntaxExport

/-- A position in a source file. -/
structure SourceLocation where
  file : FileId
  line : Nat
  column : Nat
  deriving DecidableEq, Repr, Inhabited

/-- The text `file:line:column` with the file as its position in the file table. -/
def SourceLocation.describe (loc : SourceLocation) : String :=
  toString loc.file.toNat ++ ":" ++ toString loc.line ++ ":" ++ toString loc.column

/-- The extent of a node. Either end may be absent. -/
structure SourceRange where
  first : Option SourceLocation := none
  last : Option SourceLocation := none
  deriving DecidableEq, Repr, Inhabited

namespace SourceRange

/-- The range with both ends absent. -/
def absent : SourceRange := {}

/-- The range that covers one position. -/
def point (loc : SourceLocation) : SourceRange :=
  ⟨some loc, some loc⟩

/-- The file of the first location. -/
def file? (r : SourceRange) : Option FileId :=
  r.first.map (·.file)

/-- Whether both ends are present. -/
def isValid (r : SourceRange) : Bool :=
  r.first.isSome && r.last.isSome

end SourceRange

end SyntaxExport
