import SyntaxExport.Ast.Context

/-!
# Building translation units

A builder makes nodes with consistent parent links and context lists, and shares builtin types. Its
steps fail when they are given a position outside its arena.
-/

namespace SyntaxExport

/-- A translation unit under construction. -/
structure Builder where
  context : Context
  /-- The main file. -/
  file : FileId
  /-- The declaration of the translation unit. -/
  unit : DeclId
  /-- The builtin types made so far. -/
  builtins : List (BuiltinKind × TypeId) := []

/-- A step of a builder. -/
abbrev Build := StateT Builder Option

namespace Builder

/-- A builder for a translation unit whose main file is `file`. -/
def new (file : String) : Builder :=
  let (fileId, ctx) := ({} : Context).addFile file
  let (unit, ctx) := ctx.addDecl { kind := .translationUnit, context := some {} }
  { context := ctx, file := fileId, unit := unit }

/-- A location in the main file. -/
def location (b : Builder) (line column : Nat) : SourceLocation :=
  ⟨b.file, line, column⟩

/-- A range in the main file, from a line and column to another. -/
def range (b : Builder) (first last : Nat × Nat) : SourceRange :=
  ⟨some (b.location first.1 first.2), some (b.location last.1 last.2)⟩

end Builder

namespace Build

/-- A step that grows the context. -/
def grow {α : Type} (f : Context → α × Context) : Build α := fun b =>
  let (a, ctx) := f b.context
  some (a, { b with context := ctx })

def addFile (name : String) : Build FileId :=
  grow (·.addFile name)

def addDecl (d : Decl) : Build DeclId :=
  grow (·.addDecl d)

def addStmt (s : Stmt) : Build StmtId :=
  grow (·.addStmt s)

def addType (t : TypeNode) : Build TypeId :=
  grow (·.addType t)

def addComment (c : Comment) : Build CommentId :=
  grow (·.addComment c)

def addAttr (a : Attr) : Build AttrId :=
  grow (·.addAttr a)

def addTemporary : Build TemporaryId :=
  grow (·.addTemporary)

def getDecl (id : DeclId) : Build Decl := do
  StateT.lift ((← get).context.decl? id)

def getStmt (id : StmtId) : Build Stmt := do
  StateT.lift ((← get).context.stmt? id)

def getType (id : TypeId) : Build TypeNode := do
  StateT.lift ((← get).context.type? id)

/-- Changes a declaration, which must exist. -/
def updateDecl (id : DeclId) (f : Decl → Decl) : Build Unit := do
  let _ ← getDecl id
  modify fun b => { b with context := b.context.modifyDecl id f }

/-- Changes a statement, which must exist. -/
def updateStmt (id : StmtId) (f : Stmt → Stmt) : Build Unit := do
  let _ ← getStmt id
  modify fun b => { b with context := b.context.modifyStmt id f }

/-- Changes a type, which must exist. -/
def updateType (id : TypeId) (f : TypeNode → TypeNode) : Build Unit := do
  let _ ← getType id
  modify fun b => { b with context := b.context.modifyType id f }

/-! ### Types -/

/-- The type of a builtin kind, made at its first use. -/
def builtin (kind : BuiltinKind) : Build TypeId := do
  match (← get).builtins.lookup kind with
  | some t => pure t
  | none =>
    let t ← addType { kind := .builtin, spelling := kind.spelling, payload := .builtin kind }
    modify fun b => { b with builtins := (kind, t) :: b.builtins }
    pure t

def pointerTo (pointee : TypeId) : Build TypeId := do
  let node ← getType pointee
  addType { kind := .pointer, spelling := node.spelling ++ " *", payload := .child (some pointee) }

/-- The record type of a declaration, which becomes its declared type. -/
def recordType (decl : DeclId) : Build TypeId := do
  let d ← getDecl decl
  let t ← addType
    { kind := .record, spelling := "struct " ++ d.simpleName, payload := .tag decl }
  updateDecl decl fun d => { d with typeForDecl := some t }
  pure t

def functionType (returnType : TypeId) (params : List TypeId) : Build TypeId := do
  let names ← params.mapM fun p => return (← getType p).spelling
  let result ← getType returnType
  addType
    { kind := .functionProto
      spelling := result.spelling ++ " (" ++ ", ".intercalate names ++ ")"
      payload := .function (some returnType) (some (params.map some)) }

/-! ### Declarations -/

/-- Appends `child` to the context of `parent` and points the child back at it. -/
def addToContext (parent child : DeclId) : Build Unit := do
  updateDecl parent (·.addChild child)
  updateDecl child (·.withParent parent)

/-- Adds a declaration to the context of `parent`. -/
def declare (parent : DeclId) (d : Decl) : Build DeclId := do
  let id ← addDecl d
  addToContext parent id
  pure id

/-- The name `s` inside the declaration `parent`. -/
def qualified (parent : DeclId) (s : String) : Build DeclName := do
  return DeclName.inside (← getDecl parent).name s

/-- A parameter, to be attached by `function`. -/
def param (name : String) (type : QualType) (range : SourceRange) : Build DeclId :=
  addDecl
    { kind := .parmVar, range := range, name := some (DeclName.simple name), valueType := some type
      payload := .var {} }

def function (parent : DeclId) (name : String) (type : TypeId) (params : List DeclId)
    (body : Option StmtId) (range : SourceRange) : Build DeclId := do
  let declName ← qualified parent name
  let id ← declare parent
    { kind := .function, range := range, name := some declName
      valueType := some (QualType.plain type)
      payload := .function { params := params, body := body } }
  params.forM fun p => updateDecl p (·.withParent id)
  pure id

/-- A variable outside every context. -/
def localVar (name : String) (type : QualType) (init : Option StmtId) (range : SourceRange) :
    Build DeclId :=
  addDecl
    { kind := .var, range := range, name := some (DeclName.simple name), valueType := some type
      payload := .var { init := init } }

/-- A variable in the context of `parent`. -/
def var (parent : DeclId) (name : String) (type : QualType) (init : Option StmtId)
    (range : SourceRange) : Build DeclId := do
  let id ← localVar name type init range
  addToContext parent id
  let declName ← qualified parent name
  updateDecl id fun d => { d with name := some declName }
  pure id

/-- A complete record with a record type of its own. -/
def record (parent : DeclId) (name : String) (range : SourceRange) : Build (DeclId × TypeId) := do
  let declName ← qualified parent name
  let id ← declare parent
    { kind := .record, range := range, name := some declName, context := some {}
      payload := .record { isCompleteDefinition := true } }
  let t ← recordType id
  pure (id, t)

def field (record : DeclId) (name : String) (type : QualType) (range : SourceRange) :
    Build DeclId := do
  let declName ← qualified record name
  declare record
    { kind := .field, range := range, name := some declName, valueType := some type
      payload := .field {} }

/-! ### Statements -/

def compound (children : List StmtId) (range : SourceRange) : Build StmtId :=
  addStmt { kind := .compoundStmt, range := range, children := children.map some }

def returnStmt (value : Option StmtId) (range : SourceRange) : Build StmtId :=
  addStmt { kind := .returnStmt, range := range, children := [value] }

/-- A declaration statement. Initializers stay with their variables. -/
def declStmt (decls : List DeclId) (range : SourceRange) : Build StmtId :=
  addStmt { kind := .declStmt, range := range, payload := .decls decls }

def intLiteral (value : Int) (range : SourceRange) : Build StmtId := do
  let int ← builtin .int
  addStmt
    { kind := .integerLiteral, range := range, expr := some { type := QualType.plain int }
      payload := .integerLiteral true 32 (toString value) }

/-- An lvalue that refers to a declaration and has its type. -/
def declRef (decl : DeclId) (range : SourceRange) : Build StmtId := do
  let d ← getDecl decl
  addStmt
    { kind := .declRefExpr, range := range
      expr := some { type := d.valueType.getD QualType.null, valueKind := .lvalue }
      payload := .declRef (some decl) none }

def binary (opcode : BinaryOpcode) (lhs rhs : StmtId) (type : QualType) (range : SourceRange) :
    Build StmtId :=
  addStmt
    { kind := .binaryOperator, range := range, children := [some lhs, some rhs]
      expr := some { type := type }, payload := .binary opcode none }

end Build

end SyntaxExport
