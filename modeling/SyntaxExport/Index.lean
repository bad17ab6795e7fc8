import Std.Data.HashMap
import SyntaxExport.Ast.Walk
import SyntaxExport.Identity.Basic

/-!
# Indexes

A document names nodes by identity alone. An index maps the identities of the declarations,
statements and types of a translation unit back to the nodes, so that what a document mentions can
be found.
-/

namespace SyntaxExport

/-- Why an index is not built. -/
inductive IndexError where
  /-- The index has entries, so many. -/
  | notReset (size : Nat)
  | invalidRoot
  | walk (e : WalkError)
  deriving DecidableEq, Repr

/-- The short name of a failure. -/
def IndexError.name : IndexError → String
  | .notReset _ => "NotReset"
  | .invalidRoot => "InvalidRoot"
  | .walk .cyclic => "Cyclic"
  | .walk (.missing _) => "DanglingNode"

def IndexError.message : IndexError → String
  | .notReset size =>
    "index already holds " ++ toString size ++ " entries; reset it before building again"
  | .invalidRoot => "index root must be a translation unit"
  | .walk .cyclic => "a node is defined inside itself"
  | .walk (.missing _) => "a node is referenced but not in the context"

/-- The nodes of a translation unit by identity. -/
structure Index where
  decls : Std.HashMap NodeIdentity DeclId := {}
  stmts : Std.HashMap NodeIdentity StmtId := {}
  types : Std.HashMap NodeIdentity TypeId := {}

namespace Index

def empty : Index := {}

instance : Inhabited Index := ⟨empty⟩

/-- The number of nodes. -/
def size (x : Index) : Nat :=
  x.decls.size + x.stmts.size + x.types.size

def isEmpty (x : Index) : Bool :=
  x.size == 0

/-- Enters a visited node. Comments are not entered. -/
def enter (x : Index) : Visit → Index
  | .decl id => { x with decls := x.decls.insert (NodeRef.decl id).identity id }
  | .stmt id => { x with stmts := x.stmts.insert (NodeRef.stmt id).identity id }
  | .type id => { x with types := x.types.insert (NodeRef.type id).identity id }
  | .comment _ => x

/-- Whether `root` is a translation unit of the context. -/
def isRoot (ctx : Context) (root : DeclId) : Bool :=
  match ctx.decl? root with
  | none => false
  | some d => d.kind == .translationUnit

/-- Enters the nodes of the translation unit under `root` into an empty index. -/
def build (ctx : Context) (root : DeclId) (x : Index) : Except IndexError Index :=
  if !x.isEmpty then .error (.notReset x.size)
  else if !isRoot ctx root then .error .invalidRoot
  else
    match ctx.walkOutsideComments root with
    | .error e => .error (.walk e)
    | .ok visits => .ok (visits.foldl enter x)

/-- The index of the translation unit under `root`. -/
def ofUnit (ctx : Context) (root : DeclId) : Except IndexError Index :=
  build ctx root empty

/-! ### Lookups -/

def decl? (x : Index) (i : NodeIdentity) : Option DeclId :=
  x.decls[i]?

def stmt? (x : Index) (i : NodeIdentity) : Option StmtId :=
  x.stmts[i]?

def type? (x : Index) (i : NodeIdentity) : Option TypeId :=
  x.types[i]?

/-- The declaration that a text of a document names. -/
def declOfText? (x : Index) (s : String) : Option DeclId :=
  (NodeIdentity.parse s).toOption.bind x.decl?

/-- The statement that a text of a document names. -/
def stmtOfText? (x : Index) (s : String) : Option StmtId :=
  (NodeIdentity.parse s).toOption.bind x.stmt?

/-- The type that a text of a document names. -/
def typeOfText? (x : Index) (s : String) : Option TypeId :=
  (NodeIdentity.parse s).toOption.bind x.type?

/-- The node of a context behind an identity. -/
def resolveDecl? (x : Index) (ctx : Context) (i : NodeIdentity) : Option Decl :=
  (x.decl? i).bind ctx.decl?

def resolveStmt? (x : Index) (ctx : Context) (i : NodeIdentity) : Option Stmt :=
  (x.stmt? i).bind ctx.stmt?

def resolveType? (x : Index) (ctx : Context) (i : NodeIdentity) : Option TypeNode :=
  (x.type? i).bind ctx.type?

/-- Identities in the order of their words. -/
def sorted (is : List NodeIdentity) : List NodeIdentity :=
  is.mergeSort fun a b => decide (a.raw ≤ b.raw)

def declIdentities (x : Index) : List NodeIdentity :=
  sorted x.decls.keys

def stmtIdentities (x : Index) : List NodeIdentity :=
  sorted x.stmts.keys

def typeIdentities (x : Index) : List NodeIdentity :=
  sorted x.types.keys

end Index

end SyntaxExport
