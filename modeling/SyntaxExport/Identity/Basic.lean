import SyntaxExport.Ast.Id
import SyntaxExport.Text.Hex

/-!
# Node identities

An identity names a node independently of where a document mentions it. It packs the sort of the
node and its index into one word: the sort from bit 40 upwards, the index from bit 4. The text of an
identity is that word in hexadecimal.
-/

namespace SyntaxExport

/-- Anything that has an identity. -/
inductive NodeRef where
  | decl (id : DeclId)
  | stmt (id : StmtId)
  | type (id : TypeId)
  | comment (id : CommentId)
  | attr (id : AttrId)
  | temporary (id : TemporaryId)
  /-- The node written in place of an absent one. -/
  | sentinel (family : Family)
  /-- No node at all. -/
  | null
  deriving DecidableEq, Repr

/-- A word that names a node. -/
structure NodeIdentity where
  raw : UInt64
  deriving DecidableEq, Repr, Hashable

namespace NodeRef

/-- The reference to a type that may be absent. -/
def ofType : Option TypeId → NodeRef
  | none => .null
  | some t => .type t

/-- The place of the sort of a node in the order of identities. -/
def rank : NodeRef → Nat
  | .null => 0
  | .decl _ => 1
  | .stmt _ => 2
  | .type _ => 3
  | .comment _ => 4
  | .attr _ => 5
  | .temporary _ => 6
  | .sentinel _ => 7

/-- The index of a node among the nodes of its sort. -/
def index : NodeRef → Nat
  | .null => 0
  | .decl id => id.toNat
  | .stmt id => id.toNat
  | .type id => id.toNat
  | .comment id => id.toNat
  | .attr id => id.toNat
  | .temporary id => id.toNat
  | .sentinel family => family.ctorIdx

/-- The identity of a node. The lowest four bits stay clear. -/
def identity (r : NodeRef) : NodeIdentity :=
  ⟨UInt64.ofNat (r.rank * 0x10000000000 + r.index * 0x10)⟩

/-- The text of a reference in messages. -/
def describe : NodeRef → String
  | .decl id => "Decl(" ++ id.describe ++ ")"
  | .stmt id => "Stmt(" ++ id.describe ++ ")"
  | .type id => "Type(" ++ id.describe ++ ")"
  | .comment id => "Comment(" ++ id.describe ++ ")"
  | .attr id => "Attr(" ++ id.describe ++ ")"
  | .temporary id => "Temporary(" ++ id.describe ++ ")"
  | .sentinel .decl => "Sentinel(Decl)"
  | .sentinel .stmt => "Sentinel(Stmt)"
  | .sentinel .type => "Sentinel(Type)"
  | .sentinel .comment => "Sentinel(Comment)"
  | .null => "Null"

end NodeRef

namespace NodeIdentity

/-- The identity of no node. -/
def null : NodeIdentity := ⟨0⟩

def isNull (i : NodeIdentity) : Bool :=
  i.raw == 0

/-- The hexadecimal text of an identity. -/
def text (i : NodeIdentity) : String :=
  String.ofList ('0' :: 'x' :: Hex.digits i.raw.toNat)

/-- Drops one `0x` or `0X`. -/
def dropMark : List Char → List Char
  | '0' :: 'x' :: rest => rest
  | '0' :: 'X' :: rest => rest
  | s => s

/-- Reads the text of an identity. The mark `0x` is not required. -/
def parse (s : String) : Except Hex.ReadError NodeIdentity :=
  (fun n => ⟨UInt64.ofNat n⟩) <$> Hex.readBelow UInt64.size (dropMark s.toList)

end NodeIdentity

/-- The wording of a failure to read an identity. -/
def Hex.ReadError.message : Hex.ReadError → String
  | .empty => "cannot parse integer from empty string"
  | .invalidDigit => "invalid digit found in string"
  | .tooLarge => "number too large to fit in target type"

end SyntaxExport
