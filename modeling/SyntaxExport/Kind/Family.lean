import SyntaxExport.Kind.Comment
import SyntaxExport.Kind.Stmt
import SyntaxExport.Kind.Type
import SyntaxExport.Kind.Decl

/-!
# The kinds of a family
-/

namespace SyntaxExport

/-- The enumeration of the kinds of a family. -/
abbrev Family.Kind : Family → Type
  | .decl => DeclKind
  | .stmt => StmtKind
  | .type => TypeKind
  | .comment => CommentKind

instance Family.nodeKind : (f : Family) → NodeKind f.Kind
  | .decl => inferInstanceAs (NodeKind DeclKind)
  | .stmt => inferInstanceAs (NodeKind StmtKind)
  | .type => inferInstanceAs (NodeKind TypeKind)
  | .comment => inferInstanceAs (NodeKind CommentKind)

end SyntaxExport
