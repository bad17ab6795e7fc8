import SyntaxExport.Ast.Location

/-!
# Attributes
-/

namespace SyntaxExport

/-- An attribute of a declaration or statement. -/
structure Attr where
  /-- The name without the suffix `Attr`. -/
  name : String
  range : SourceRange := {}
  /-- The arguments, as text. -/
  parameters : List String := []
  isInherited : Bool := false
  isImplicit : Bool := false
  deriving DecidableEq, Repr, Inhabited

/-- The tag an attribute is written with. -/
def Attr.tag (a : Attr) : String :=
  a.name ++ "Attr"

end SyntaxExport
