import SyntaxExport.Ast.Context

/-!
# Walks over definitional positions

Every declaration, statement and comment is defined at one place of its translation unit, and every
type in the type list of the unit. A walk visits a node before the nodes that are defined inside it,
in document order. Mentions of other nodes (redeclarations, callees, operands) are not followed.

`Context.inside?` gives the nodes defined directly inside a node, and `Context.walk` the whole walk.
A walk fails when it meets a position outside its arena. The fuel of a walk is the number of nodes
that can lie on one path, so it only ends early where nodes are defined inside themselves.
-/

namespace SyntaxExport

/-- A node at the position that defines it. -/
inductive Visit where
  | decl (id : DeclId)
  | stmt (id : StmtId)
  | type (id : TypeId)
  | comment (id : CommentId)
  deriving DecidableEq, Repr

/-- The family of a visited node. -/
def Visit.family : Visit → Family
  | .decl _ => .decl
  | .stmt _ => .stmt
  | .type _ => .type
  | .comment _ => .comment

/-- The position of a visited node in its arena. -/
def Visit.index : Visit → Nat
  | .decl id => id.toNat
  | .stmt id => id.toNat
  | .type id => id.toNat
  | .comment id => id.toNat

/-- Why a walk ends early. -/
inductive WalkError where
  /-- A position outside its arena. -/
  | missing (v : Visit)
  /-- A node that is defined inside itself. -/
  | cyclic
  deriving DecidableEq, Repr

/-- The visits of the statements that are present. -/
def Visit.stmts (ss : List (Option StmtId)) : List Visit :=
  ss.filterMap (·.map .stmt)

namespace DeclPayload

/-- The nodes that a payload defines, whatever the kind of its declaration. -/
def definitions : DeclPayload → List Visit
  | .enumConstant init => Visit.stmts [init]
  | .function info =>
    info.prototypeDecls.map .decl ++ info.params.map .decl
      ++ Visit.stmts (info.ctorInitializers.map (·.init)) ++ Visit.stmts [info.body]
  | .field info => Visit.stmts [info.init, info.bitWidth]
  | .var info => Visit.stmts [info.init]
  | .objCMethod info => info.params.map .decl ++ Visit.stmts [info.body]
  | .objCImplementation info => Visit.stmts (info.ivarInitializers.map (·.init))
  | .block info =>
    info.params.map .decl ++ Visit.stmts (info.captures.map (·.copyExpr))
      ++ Visit.stmts [info.body]
  | _ => []

end DeclPayload

namespace StmtPayload

/-- The declarations that a payload defines, whatever the kind of its statement. -/
def definitions : StmtPayload → List Visit
  | .decls ds => ds.map .decl
  | .catchParam (some d) => [.decl d]
  | .ownedDecl (some d) => [.decl d]
  | _ => []

end StmtPayload

namespace Context

/-- The nodes defined directly inside a declaration: its comment, its children, the type list of a
translation unit, and what its payload defines. -/
def insideDecl (ctx : Context) (d : Decl) : List Visit :=
  (d.fullComment.toList.map .comment)
    ++ (if d.kind.isDeclContext then (d.context.getD {}).decls.map .decl else [])
    ++ (if d.kind = .translationUnit then ctx.typeIds.map .type else [])
    ++ d.payload.definitions

/-- The nodes defined directly inside a node, `none` for a position outside its arena. -/
def inside? (ctx : Context) : Visit → Option (List Visit)
  | .decl id => (ctx.decl? id).map ctx.insideDecl
  | .stmt id => (ctx.stmt? id).map fun s => Visit.stmts s.children ++ s.payload.definitions
  | .type id => (ctx.type? id).map fun _ => []
  | .comment id => (ctx.comment? id).map fun c => c.children.filterMap (·.map .comment)

/-- Visits a node and what is defined inside it. `seen` holds the visits so far, the last first.
Without `comments`, nothing inside a comment is visited. -/
def visitFrom (ctx : Context) (comments : Bool) :
    Nat → List Visit → Visit → Except WalkError (List Visit)
  | 0, _, _ => .error .cyclic
  | fuel + 1, seen, v =>
    match ctx.inside? v, v with
    | none, _ => .error (.missing v)
    | some inner, .comment _ =>
      if comments then inner.foldlM (ctx.visitFrom comments fuel) (v :: seen) else .ok (v :: seen)
    | some inner, _ => inner.foldlM (ctx.visitFrom comments fuel) (v :: seen)

/-- The walk of the translation unit under `root`. -/
def walk (ctx : Context) (root : DeclId) : Except WalkError (List Visit) :=
  (·.reverse) <$> ctx.visitFrom true ctx.nestingBound [] (.decl root)

/-- The walk of the translation unit under `root` that does not enter comments. -/
def walkOutsideComments (ctx : Context) (root : DeclId) : Except WalkError (List Visit) :=
  (·.reverse) <$> ctx.visitFrom false ctx.nestingBound [] (.decl root)

end Context

end SyntaxExport
