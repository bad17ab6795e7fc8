import SyntaxExport.Ast.Location
import SyntaxExport.Ast.Operator
import SyntaxExport.Ast.QualType
import SyntaxExport.Ast.Word
import SyntaxExport.Kind.Stmt

/-!
# Statements and expressions
-/

namespace SyntaxExport

/-- The facet of expressions. -/
structure ExprInfo where
  type : QualType := {}
  valueKind : ValueKind := .rvalue
  objectKind : ObjectKind := .ordinary
  deriving DecidableEq, Repr, Inhabited

/-! ### Payloads -/

/-- A class on the way of a conversion between derived and base. -/
structure CastBase where
  name : String
  isVirtual : Bool := false
  deriving DecidableEq, Repr

/-- A cast. The written type is read for explicit casts, the cast name for named C++ casts. -/
structure CastInfo where
  kind : CastKind
  basePath : List CastBase := []
  writtenType : Option QualType := none
  castName : Option String := none
  deriving DecidableEq, Repr

/-- An overload set. The fields below `name` are read for unresolved lookups only. -/
structure OverloadInfo where
  decls : List DeclId := []
  nameKind : DeclarationNameKind
  name : String := ""
  requiresAdl : Bool := false
  isOverloaded : Bool := false
  namingClass : Option DeclId := none
  deriving DecidableEq, Repr

/-- The types of a compound assignment. -/
structure CompoundTypes where
  lhs : QualType := {}
  result : QualType := {}
  deriving DecidableEq, Repr

/-- Whom a message is sent to. -/
inductive Receiver where
  | object
  | ofClass (type : QualType)
  | superObject
  | superClass
  deriving DecidableEq, Repr

/-- What a property reference reads and writes. -/
inductive PropertyTarget where
  /-- An implicit property, by the selectors of its accessors. -/
  | methods (getter setter : Option String)
  | property (decl : DeclId)
  deriving DecidableEq, Repr

structure PropertyRef where
  target : PropertyTarget
  isSuperReceiver : Bool := false
  isMessagingGetter : Bool := false
  isMessagingSetter : Bool := false
  deriving DecidableEq, Repr

/-- What a statement holds beyond its children. -/
inductive StmtPayload where
  | empty
  /-- The declarations that a declaration statement introduces. -/
  | decls (decls : List DeclId)
  | attributes (attrs : List AttrId)
  | label (name : String)
  /-- A label and its declaration, from `goto` or `&&label`. -/
  | labelRef (name : String) (target : DeclId)
  /-- The parameter of a catch; without one everything is caught. -/
  | catchParam (decl : Option DeclId)
  | cast (info : CastInfo)
  /-- A referenced declaration, and the one that lookup found where it is another. -/
  | declRef (decl found : Option DeclId)
  | overload (info : OverloadInfo)
  | ivarRef (decl : DeclId) (isFree : Bool)
  | predefined (ident : PredefinedIdent)
  | characterLiteral (value : Nat)
  | integerLiteral (isSigned : Bool) (bitwidth : Nat) (value : String)
  | floatingLiteral (value : String)
  | stringLiteral (value : String)
  | unary (opcode : UnaryOpcode)
  | unaryTrait (kind : TraitKind) (argumentType : Option QualType)
  | member (isArrow : Bool) (decl : DeclId)
  /-- The accessor of vector elements. -/
  | accessor (name : String)
  /-- A binary operator; the types are read for compound assignments only. -/
  | binary (opcode : BinaryOpcode) (types : Option CompoundTypes)
  /-- The block of a block expression or the class of a lambda. -/
  | ownedDecl (decl : Option DeclId)
  | opaqueValue (source : Option StmtId)
  | boolLiteral (value : Bool)
  | construct (type : QualType) (isElidable requiresZeroInit : Bool)
  | bindTemporary (temporary : TemporaryId)
  | materializeTemporary (extendingDecl : Option DeclId)
  | cleanups (objects : List DeclId) (subExpr : StmtId)
  | new (isArray : Bool) (arraySize initializer : Option StmtId)
  | delete (isArray : Bool)
  | message (selector : String) (method : Option DeclId) (receiver : Receiver)
  | selector (name : String)
  | encoded (type : QualType)
  | protocol (decl : DeclId)
  | propertyRef (ref : PropertyRef)
  | subscriptRef (kind : SubscriptKind) (getter setter : Option String)
  deriving DecidableEq, Repr

/-- A statement or expression. An absent child marks a slot that holds nothing, such as the missing
initialization of a `for`. -/
structure Stmt where
  kind : StmtKind
  range : SourceRange := {}
  children : List (Option StmtId) := []
  /-- The facet of expressions. -/
  expr : Option ExprInfo := none
  payload : StmtPayload := .empty
  deriving DecidableEq, Repr

end SyntaxExport
