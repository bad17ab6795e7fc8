import SyntaxExport.Ast.Attr
import SyntaxExport.Ast.Comment
import SyntaxExport.Ast.Decl
import SyntaxExport.Ast.Stmt
import SyntaxExport.Ast.Type

/-!
# Contexts

A context owns the nodes of one translation unit, family by family in arenas, and the table of the
files that their locations refer to. An arena only grows, and an entry keeps its position. Lookups
are checked: a position outside its arena gives `none`.
-/

namespace SyntaxExport

/-- The nodes and files of one translation unit. -/
structure Context where
  /-- The file table, without repetitions. -/
  files : Array String := #[]
  decls : Array Decl := #[]
  stmts : Array Stmt := #[]
  types : Array TypeNode := #[]
  comments : Array Comment := #[]
  attrs : Array Attr := #[]
  /-- Temporaries have no content, so their number is all there is to keep. -/
  temporaries : Nat := 0
  deriving Inhabited

namespace Context

/-! ### Lookups -/

def fileName? (ctx : Context) (id : FileId) : Option String :=
  ctx.files[id.toNat]?

def decl? (ctx : Context) (id : DeclId) : Option Decl :=
  ctx.decls[id.toNat]?

def stmt? (ctx : Context) (id : StmtId) : Option Stmt :=
  ctx.stmts[id.toNat]?

def type? (ctx : Context) (id : TypeId) : Option TypeNode :=
  ctx.types[id.toNat]?

def comment? (ctx : Context) (id : CommentId) : Option Comment :=
  ctx.comments[id.toNat]?

def attr? (ctx : Context) (id : AttrId) : Option Attr :=
  ctx.attrs[id.toNat]?

/-- Every type, in the order of definition. -/
def typeIds (ctx : Context) : List TypeId :=
  (List.range ctx.types.size).map Id.ofSize

/-- The number of nodes that can lie on one path of nested definitions: declarations, statements and
comments, and at the end a type or a position outside its arena. -/
def nestingBound (ctx : Context) : Nat :=
  ctx.decls.size + ctx.stmts.size + ctx.comments.size + 1

/-! ### Growth -/

/-- Registers a file name. A name that is known keeps its position. -/
def addFile (ctx : Context) (name : String) : FileId × Context :=
  match ctx.files.idxOf? name with
  | some i => (FileId.ofSize i, ctx)
  | none => (FileId.ofSize ctx.files.size, { ctx with files := ctx.files.push name })

def addDecl (ctx : Context) (d : Decl) : DeclId × Context :=
  (Id.ofSize ctx.decls.size, { ctx with decls := ctx.decls.push d })

def addStmt (ctx : Context) (s : Stmt) : StmtId × Context :=
  (Id.ofSize ctx.stmts.size, { ctx with stmts := ctx.stmts.push s })

def addType (ctx : Context) (t : TypeNode) : TypeId × Context :=
  (Id.ofSize ctx.types.size, { ctx with types := ctx.types.push t })

def addComment (ctx : Context) (c : Comment) : CommentId × Context :=
  (Id.ofSize ctx.comments.size, { ctx with comments := ctx.comments.push c })

def addAttr (ctx : Context) (a : Attr) : AttrId × Context :=
  (Id.ofSize ctx.attrs.size, { ctx with attrs := ctx.attrs.push a })

def addTemporary (ctx : Context) : TemporaryId × Context :=
  (Id.ofSize ctx.temporaries, { ctx with temporaries := ctx.temporaries + 1 })

/-! ### Changes in place -/

def modifyDecl (ctx : Context) (id : DeclId) (f : Decl → Decl) : Context :=
  { ctx with decls := ctx.decls.modify id.toNat f }

def modifyStmt (ctx : Context) (id : StmtId) (f : Stmt → Stmt) : Context :=
  { ctx with stmts := ctx.stmts.modify id.toNat f }

def modifyType (ctx : Context) (id : TypeId) (f : TypeNode → TypeNode) : Context :=
  { ctx with types := ctx.types.modify id.toNat f }

/-! ### Spellings of qualified types -/

/-- The spelling of a qualified type, empty for the null type. The error is a type that is not in
the context. -/
def spelling (ctx : Context) (q : QualType) : Except TypeId String :=
  match q.type with
  | none => .ok ""
  | some t =>
    match ctx.type? t with
    | none => .error t
    | some node => .ok (q.qualify node.spelling)

/-- The spelling without sugar, where it differs. The error is a type that is not in the context. -/
def desugaredSpelling (ctx : Context) (q : QualType) : Except TypeId (Option String) :=
  match q.type with
  | none => .ok none
  | some t =>
    match ctx.type? t with
    | none => .error t
    | some node =>
      match node.desugared with
      | none => .ok none
      | some d =>
        match ctx.type? d with
        | none => .error d
        | some target =>
          .ok (if target.spelling = node.spelling then none else some (q.qualify target.spelling))

end Context

end SyntaxExport
