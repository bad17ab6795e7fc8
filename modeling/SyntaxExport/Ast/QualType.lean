import SyntaxExport.Ast.Id

/-!
# Qualified type references
-/

namespace SyntaxExport

/-- A reference to a type with its qualifiers; without a type it is the null type. -/
structure QualType where
  type : Option TypeId := none
  isConst : Bool := false
  isVolatile : Bool := false
  isRestrict : Bool := false
  deriving DecidableEq, Repr, Inhabited

namespace QualType

/-- The reference to no type. -/
def null : QualType := {}

/-- The unqualified reference to a type. -/
def plain (t : TypeId) : QualType := ⟨some t, false, false, false⟩

def isNull (q : QualType) : Bool :=
  q.type.isNone

/-- Writes the qualifiers of `q` in front of a type spelling. -/
def qualify (q : QualType) (spelling : String) : String :=
  (if q.isConst then "const " else "") ++ (if q.isVolatile then "volatile " else "")
    ++ (if q.isRestrict then "restrict " else "") ++ spelling

end QualType

end SyntaxExport
