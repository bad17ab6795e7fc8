import SyntaxExport.Ast.Location
import SyntaxExport.Ast.Word
import SyntaxExport.Kind.Comment

/-!
# Documentation comments
-/

namespace SyntaxExport

/-- The name and arguments of a block command. -/
structure BlockCommand where
  name : String := ""
  args : List String := []
  deriving DecidableEq, Repr, Inhabited

/-- What a comment holds beyond its children. -/
inductive CommentPayload where
  | empty
  | text (text : String)
  | inlineCommand (name : String) (render : RenderKind) (args : List String)
  /-- A start tag with its attributes as pairs of name and value. -/
  | htmlStartTag (tag : String) (attributes : List (String × String)) (selfClosing : Bool)
  | htmlEndTag (tag : String)
  | blockCommand (command : BlockCommand)
  | paramCommand (command : BlockCommand) (direction : ParamDirection) (isExplicit : Bool)
      (paramName : Option String) (paramIndex : Option Nat)
  | tParamCommand (command : BlockCommand) (paramName : Option String) (position : List Nat)
  | verbatimBlock (command : BlockCommand) (closeName : String)
  | verbatimLine (command : BlockCommand) (text : String)
  deriving DecidableEq, Repr

namespace CommentPayload

/-- The command that every payload of a block command has. -/
def command? : CommentPayload → Option BlockCommand
  | .blockCommand c | .paramCommand c .. | .tParamCommand c .. | .verbatimBlock c _
  | .verbatimLine c _ => some c
  | _ => none

/-- The tag name that start and end tags have. -/
def htmlTag? : CommentPayload → Option String
  | .htmlStartTag tag .. | .htmlEndTag tag => some tag
  | _ => none

end CommentPayload

/-- A documentation comment. An absent child marks a slot that was never filled. -/
structure Comment where
  kind : CommentKind
  range : SourceRange := {}
  children : List (Option CommentId) := []
  payload : CommentPayload := .empty
  deriving DecidableEq, Repr

end SyntaxExport
