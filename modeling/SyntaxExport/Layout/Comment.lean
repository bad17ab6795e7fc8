import SyntaxExport.Layout.Basic

/-!
# Layouts of comments
-/

namespace SyntaxExport.Layout

/-- Whether a child is present and not in the context. -/
def isCommentMissing (ctx : Context) : Option CommentId → Bool
  | none => false
  | some id => (ctx.comment? id).isNone

/-- The children of a comment, all of which must be in the context. -/
def commentChildren (ctx : Context) (c : Comment) : Layout :=
  match c.children.find? (isCommentMissing ctx) with
  | some (some id) => fault (.danglingNode (.comment id))
  | _ => list (fun child => .leaf (.define (.comment child))) c.children

/-! ### Payloads -/

def inlineCommand (name : String) (render : RenderKind) (args : List String) : Layout :=
  .object (2 + (!args.isEmpty).toNat)
    ([("name", string name), ("render_kind", simple render.name)] ++ nonempty "args" args string)

def htmlAttribute (a : String × String) : Layout :=
  .object 2 [("name", string a.1), ("value", string a.2)]

def htmlStartTag (attributes : List (String × String)) (selfClosing : Bool) : Layout :=
  .object (count [!attributes.isEmpty, selfClosing])
    (nonempty "attributes" attributes htmlAttribute ++ flag "is_self_closing" selfClosing)

def blockCommand (c : BlockCommand) : Layout :=
  .object (1 + (!c.args.isEmpty).toNat)
    ([("name", string c.name)] ++ nonempty "args" c.args string)

def paramCommand (direction : ParamDirection) (isExplicit : Bool) (name : Option String)
    (index : Option Nat) : Layout :=
  .object (1 + count [isExplicit, name.isSome, index.isSome])
    ([("direction", simple direction.name)]
      ++ flag "is_direction_explicit" isExplicit
      ++ optional "param_name" name string
      ++ optional "param_index" index unsigned)

def tParamCommand (name : Option String) (position : List Nat) : Layout :=
  .object (count [name.isSome, !position.isEmpty])
    (optional "param_name" name string ++ nonempty "position" position unsigned)

/-- What a level of the kind of a comment reads from the payload. -/
def commentPayload (c : Comment) : CommentKind → Layout
  | .inlineCommandComment =>
    match c.payload with
    | .inlineCommand name render args => inlineCommand name render args
    | _ => missing c.kind "inline command"
  | .htmlTagComment =>
    match c.payload.htmlTag? with
    | some tag => string tag
    | none => missing c.kind "tag name"
  | .htmlStartTagComment =>
    match c.payload with
    | .htmlStartTag _ attributes selfClosing => htmlStartTag attributes selfClosing
    | _ => missing c.kind "start tag"
  | .blockCommandComment =>
    match c.payload.command? with
    | some command => blockCommand command
    | none => missing c.kind "block command"
  | .paramCommandComment =>
    match c.payload with
    | .paramCommand _ direction isExplicit name index =>
      paramCommand direction isExplicit name index
    | _ => missing c.kind "parameter command"
  | .tParamCommandComment =>
    match c.payload with
    | .tParamCommand _ name position => tParamCommand name position
    | _ => missing c.kind "template parameter command"
  | .verbatimBlockComment =>
    match c.payload with
    | .verbatimBlock _ closeName => .object 1 [("close_name", string closeName)]
    | _ => missing c.kind "closing command"
  | .verbatimLineComment =>
    match c.payload with
    | .verbatimLine _ text => string text
    | _ => missing c.kind "verbatim text"
  | _ =>
    match c.payload with
    | .text text => string text
    | _ => missing c.kind "text"

/-! ### Levels -/

/-- The fields that every comment has, besides its children. -/
def commentInfo (node : NodeRef) (c : Comment) : Layout :=
  .object 2 [("pointer", identity node), ("source_range", range c.range)]

/-- The fields that a level adds to the tuple of a comment. -/
def commentLevel (ctx : Context) (node : NodeRef) (c : Comment) : CommentKind → List Layout
  | .comment => [commentInfo node c, commentChildren ctx c]
  | level => if level.ownFieldCount = 0 then [] else [commentPayload c level]

/-- The comment written in place of an absent one. -/
def sentinelComment : Comment :=
  { kind := .noComment }

/-- A comment, which must have a concrete kind. -/
def commentNode (ctx : Context) (node : NodeRef) (c : Comment) : Layout :=
  Layout.node c.kind (commentLevel ctx node c)

theorem length_commentLevel (ctx : Context) (node : NodeRef) (c : Comment) (level : CommentKind) :
    (commentLevel ctx node c level).length = NodeKind.ownFieldCount level := by
  cases level <;> rfl

end SyntaxExport.Layout
