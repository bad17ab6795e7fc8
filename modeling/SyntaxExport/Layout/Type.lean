import SyntaxExport.Layout.Basic

/-!
# Layouts of types

Types are defined in the type list of their translation unit and nowhere else. The list ends with an
entry for the absent type, so that every identity of a type is defined in it.
-/

namespace SyntaxExport.Layout

/-- The parameters of a function type with a prototype. -/
def functionParams (params : Option (List (Option TypeId))) : Layout :=
  let params := params.getD []
  .object (!params.isEmpty).toNat (nonempty "params_type" params typePtr)

def objCObjectInfo (base : Option TypeId) (protocols : List DeclId) : Layout :=
  .object (1 + (!protocols.isEmpty).toNat)
    ([("base_type", typePtr base)]
      ++ nonempty "protocol_decls_ptr" protocols (fun p => identity (.decl p)))

/-- What a level of the kind of a type reads from the payload. -/
def typePayload (t : TypeNode) : TypeKind → Layout
  | .constantArray =>
    match t.payload with
    | .constantArray _ size => unsigned size
    | _ => missing t.kind "array size"
  | .builtin =>
    match t.payload with
    | .builtin kind => simple kind.name
    | _ => missing t.kind "builtin kind"
  | .function =>
    match t.payload with
    | .function result _ => .object 1 [("return_type", typePtr result)]
    | _ => missing t.kind "function signature"
  | .functionProto =>
    match t.payload with
    | .function _ params => functionParams params
    | _ => missing t.kind "function signature"
  | .objCObject =>
    match t.payload with
    | .objCObject base protocols => objCObjectInfo base protocols
    | .objCInterface base protocols _ => objCObjectInfo base protocols
    | _ => missing t.kind "object base type"
  | .objCInterface =>
    match t.payload with
    | .objCInterface _ _ d => identity (.decl d)
    | _ => missing t.kind "interface declaration"
  | .tag =>
    match t.payload with
    | .tag d => identity (.decl d)
    | _ => missing t.kind "tag declaration"
  | .typedef =>
    match t.payload with
    | .typedef child d =>
      .object 2 [("child_type", typePtr child), ("decl_ptr", identity (.decl d))]
    | _ => missing t.kind "typedef declaration"
  | _ =>
    match t.payload.child? with
    | some child => typePtr child
    | none => missing t.kind "child type"

/-- The fields that every type has. -/
def typeInfo (id : TypeId) (t : TypeNode) : Layout :=
  .object (2 + t.desugared.isSome.toNat)
    ([("pointer", identity (.type id)), ("raw", string t.spelling)]
      ++ optional "desugared_type" t.desugared (fun d => identity (.type d)))

/-- The fields that a level adds to the tuple of a type. -/
def typeLevel (id : TypeId) (t : TypeNode) : TypeKind → List Layout
  | .type => [typeInfo id t]
  | level => if level.ownFieldCount = 0 then [] else [typePayload t level]

/-- A type, which must have a concrete kind. -/
def typeNode (id : TypeId) (t : TypeNode) : Layout :=
  node t.kind (typeLevel id t)

/-- The entry for the absent type. -/
def noType : Layout :=
  .variant (NodeKind.tag TypeKind.noType)
    (.tuple (NodeKind.tupleSize TypeKind.noType)
      [.object 2 [("pointer", identity .null), ("raw", string "")]])

/-- The types of a context in the order of definition, and the absent type. -/
def typeList (ctx : Context) : Layout :=
  .array (ctx.types.size + 1)
    (ctx.types.toList.mapIdx (fun i t => typeNode (Id.ofSize i) t) ++ [noType])

theorem length_typeLevel (id : TypeId) (t : TypeNode) (level : TypeKind) :
    (typeLevel id t level).length = NodeKind.ownFieldCount level := by
  cases level <;> rfl

end SyntaxExport.Layout
