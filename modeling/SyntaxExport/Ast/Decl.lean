import SyntaxExport.Ast.Location
import SyntaxExport.Ast.Name
import SyntaxExport.Ast.QualType
import SyntaxExport.Ast.Word
import SyntaxExport.Kind.Decl

/-!
# Declarations

A declaration carries the fields that every declaration has, a facet for each abstract level that
needs one (name, child context, value type, declared type) and a payload. A payload need not fit the
kind: the levels of the kind decide what is read.
-/

namespace SyntaxExport

/-- The boolean properties that every declaration has. -/
structure DeclFlags where
  /-- Not visible to name lookup. -/
  hidden : Bool := false
  /-- Made by the front end. -/
  implicit : Bool := false
  used : Bool := false
  referenced : Bool := false
  invalid : Bool := false
  modulePrivate : Bool := false
  deriving DecidableEq, Repr, Inhabited

namespace DeclFlags

/-- The flags that hold in either of two sets. -/
def union (f g : DeclFlags) : DeclFlags where
  hidden := f.hidden || g.hidden
  implicit := f.implicit || g.implicit
  used := f.used || g.used
  referenced := f.referenced || g.referenced
  invalid := f.invalid || g.invalid
  modulePrivate := f.modulePrivate || g.modulePrivate

/-- The flags as a bit set, the first flag lowest. -/
def bits (f : DeclFlags) : Nat :=
  f.hidden.toNat + 2 * f.implicit.toNat + 4 * f.used.toNat + 8 * f.referenced.toNat
    + 16 * f.invalid.toNat + 32 * f.modulePrivate.toNat

end DeclFlags

/-- A link to another declaration of the same entity. -/
inductive Redeclaration where
  /-- The declaration that starts the chain. -/
  | first (decl : DeclId)
  /-- The declaration just before this one. -/
  | previous (decl : DeclId)
  deriving DecidableEq, Repr

/-- The child declarations of a declaration context. -/
structure DeclContext where
  decls : List DeclId := []
  hasExternalLexicalStorage : Bool := false
  hasExternalVisibleStorage : Bool := false
  deriving DecidableEq, Repr, Inhabited

/-! ### Payloads -/

structure NamespaceInfo where
  isInline : Bool := false
  original : Option DeclId := none
  deriving DecidableEq, Repr

/-- A record; the fields below `isCompleteDefinition` are read for C++ records only. -/
structure RecordInfo where
  isCompleteDefinition : Bool := false
  bases : List (Option TypeId) := []
  virtualBases : List (Option TypeId) := []
  isCLike : Bool := false
  deriving DecidableEq, Repr

/-- What an initializer of a constructor or of instance variables initializes. -/
inductive InitializerSubject where
  | member (decl : DeclId)
  | delegating (type : QualType)
  | baseClass (type : QualType) (isVirtual : Bool)
  deriving DecidableEq, Repr

structure CtorInitializer where
  subject : InitializerSubject
  init : Option StmtId := none
  deriving DecidableEq, Repr

structure FunctionInfo where
  storageClass : Option StorageClass := none
  isInline : Bool := false
  isVirtual : Bool := false
  isPure : Bool := false
  isDeletedAsWritten : Bool := false
  prototypeDecls : List DeclId := []
  params : List DeclId := []
  ctorInitializers : List CtorInitializer := []
  body : Option StmtId := none
  deriving DecidableEq, Repr

/-- A field; the last two are read for instance variables only. -/
structure FieldInfo where
  isMutable : Bool := false
  init : Option StmtId := none
  bitWidth : Option StmtId := none
  isSynthesize : Bool := false
  accessControl : AccessControl := .unspecified
  deriving DecidableEq, Repr

structure VarInfo where
  storageClass : Option StorageClass := none
  tlsKind : TlsKind := .noTls
  isNrvo : Bool := false
  init : Option StmtId := none
  deriving DecidableEq, Repr

/-- One component of a qualifier `a::b::`. -/
structure NestedNameSpecifier where
  kind : SpecifierKind
  /-- The namespace or alias that the component names, if it names one. -/
  decl : Option DeclId := none
  deriving DecidableEq, Repr

structure UsingDirectiveInfo where
  usingLocation : Option SourceLocation := none
  namespaceKeyLocation : Option SourceLocation := none
  qualifier : List NestedNameSpecifier := []
  nominated : Option DeclId := none
  deriving DecidableEq, Repr

structure NamespaceAliasInfo where
  namespaceLocation : Option SourceLocation := none
  targetNameLocation : Option SourceLocation := none
  qualifier : List NestedNameSpecifier := []
  target : DeclId
  deriving DecidableEq, Repr

structure ObjCMethodInfo where
  isInstance : Bool := false
  resultType : QualType := {}
  params : List DeclId := []
  isVariadic : Bool := false
  body : Option StmtId := none
  deriving DecidableEq, Repr

structure ObjCCategoryInfo where
  classInterface : Option DeclId := none
  implementation : Option DeclId := none
  protocols : List DeclId := []
  deriving DecidableEq, Repr

structure ObjCCategoryImplInfo where
  classInterface : Option DeclId := none
  category : Option DeclId := none
  deriving DecidableEq, Repr

structure ObjCInterfaceInfo where
  superClass : Option DeclId := none
  implementation : Option DeclId := none
  protocols : List DeclId := []
  deriving DecidableEq, Repr

structure ObjCImplementationInfo where
  superClass : Option DeclId := none
  classInterface : Option DeclId := none
  ivarInitializers : List CtorInitializer := []
  deriving DecidableEq, Repr

/-- An attribute of a property. -/
inductive PropertyAttribute where
  | readonly | assign | readwrite | retain | copy | nonatomic | atomic | weak | strong
  | unsafeUnretained
  | getter (method : DeclId)
  | setter (method : DeclId)
  deriving DecidableEq, Repr

structure ObjCPropertyInfo where
  classInterface : Option DeclId := none
  type : QualType := {}
  control : PropertyControl := .unspecified
  attributes : List PropertyAttribute := []
  deriving DecidableEq, Repr

structure ObjCPropertyImplInfo where
  implementation : PropertyImplementation
  property : Option DeclId := none
  ivar : Option DeclId := none
  deriving DecidableEq, Repr

structure BlockCapture where
  isByRef : Bool := false
  isNested : Bool := false
  captured : Option DeclId := none
  copyExpr : Option StmtId := none
  deriving DecidableEq, Repr

structure BlockInfo where
  params : List DeclId := []
  isVariadic : Bool := false
  capturesCxxThis : Bool := false
  captures : List BlockCapture := []
  body : Option StmtId := none
  deriving DecidableEq, Repr

/-- What a declaration holds beyond its common fields and facets. -/
inductive DeclPayload where
  | empty
  | namespaceDecl (info : NamespaceInfo)
  | enum (scope : Option EnumScope)
  | record (info : RecordInfo)
  | enumConstant (init : Option StmtId)
  /-- The fields that lead to a member of an anonymous record. -/
  | indirectField (chain : List DeclId)
  | function (info : FunctionInfo)
  | field (info : FieldInfo)
  | var (info : VarInfo)
  /-- The assembly text. -/
  | fileScopeAsm (text : String)
  /-- The name of the imported module. -/
  | importDecl (name : String)
  | usingDirective (info : UsingDirectiveInfo)
  | namespaceAlias (info : NamespaceAliasInfo)
  | objCMethod (info : ObjCMethodInfo)
  | objCCategory (info : ObjCCategoryInfo)
  | objCCategoryImpl (info : ObjCCategoryImplInfo)
  | objCProtocol (protocols : List DeclId)
  | objCInterface (info : ObjCInterfaceInfo)
  | objCImplementation (info : ObjCImplementationInfo)
  | objCCompatibleAlias (classInterface : Option DeclId)
  | objCProperty (info : ObjCPropertyInfo)
  | objCPropertyImpl (info : ObjCPropertyImplInfo)
  | block (info : BlockInfo)
  deriving DecidableEq, Repr

/-- A declaration. -/
structure Decl where
  kind : DeclKind
  range : SourceRange := {}
  semanticParent : Option DeclId := none
  lexicalParent : Option DeclId := none
  redeclaration : Option Redeclaration := none
  owningModule : Option String := none
  flags : DeclFlags := {}
  attrs : List AttrId := []
  fullComment : Option CommentId := none
  /-- The facet of named declarations. -/
  name : Option DeclName := none
  /-- The facet of declaration contexts. -/
  context : Option DeclContext := none
  /-- The facet of values. -/
  valueType : Option QualType := none
  /-- The facet of type declarations. -/
  typeForDecl : Option TypeId := none
  payload : DeclPayload := .empty
  deriving DecidableEq, Repr

namespace Decl

/-- The simple name, empty for an unnamed declaration. -/
def simpleName (d : Decl) : String :=
  match d.name with
  | none => ""
  | some n => n.name

/-- Sets both parents. -/
def withParent (d : Decl) (parent : DeclId) : Decl :=
  { d with semanticParent := some parent, lexicalParent := some parent }

/-- Appends a child to the context, which is made if there is none. -/
def addChild (d : Decl) (child : DeclId) : Decl :=
  let c := d.context.getD {}
  { d with context := some { c with decls := c.decls ++ [child] } }

end Decl

end SyntaxExport
