import SyntaxExport.Ast.Builtin
import SyntaxExport.Ast.Id
import SyntaxExport.Kind.Type

/-!
# Types

A type is defined once, in the type list of its translation unit, and mentioned everywhere else by
its position in that list. An absent type is `none`.
-/

namespace SyntaxExport

/-- What a type holds beyond its spelling. -/
inductive TypePayload where
  | empty
  /-- The pointee, element, referenced, adjusted or inner type. -/
  | child (type : Option TypeId)
  | constantArray (element : Option TypeId) (size : Nat)
  | builtin (kind : BuiltinKind)
  /-- A function type; without a prototype there are no parameters at all. -/
  | function (returnType : Option TypeId) (params : Option (List (Option TypeId)))
  | objCObject (base : Option TypeId) (protocols : List DeclId)
  | objCInterface (base : Option TypeId) (protocols : List DeclId) (decl : DeclId)
  /-- A record or enumeration type, by its declaration. -/
  | tag (decl : DeclId)
  | typedef (child : Option TypeId) (decl : DeclId)
  deriving DecidableEq, Repr

/-- The inner type of a pointer, array or wrapper; the outer `none` is for types without one. -/
def TypePayload.child? : TypePayload → Option (Option TypeId)
  | .child t => some t
  | .constantArray element _ => some element
  | _ => none

/-- A type. -/
structure TypeNode where
  kind : TypeKind
  /-- The spelling as written. -/
  spelling : String := ""
  /-- The type without its sugar, where that is another type. -/
  desugared : Option TypeId := none
  payload : TypePayload := .empty
  deriving DecidableEq, Repr

end SyntaxExport
