import SyntaxExport.Document.Tree
import SyntaxExport.Error

/-!
# Layouts

The layout of a node is its document with slots in the places that depend on what was written
before: identities, locations, and the definitions of other nodes. A layout depends on the node and
the context alone. Where a node is not well formed the layout holds a fault in the place at which
writing ends.

Every container of a layout declares its size, and the size is worked out from the node and not from
the parts that follow: from its kind, from the lengths of its lists, and from the number of its
optional fields that are present (`Layout.count`). `Layout.tree` forgets the declared sizes.

This module has the parts of layouts that nodes of several families share. Declarations are
*defined* once, in full, and *mentioned* everywhere else, either by identity or by a digest
(`Layout.declRef`).
-/

namespace SyntaxExport

/-- A node to be defined; where it is absent, the sentinel of its family is defined in its place. -/
inductive Site where
  | decl (id : Option DeclId)
  | stmt (id : Option StmtId)
  | comment (id : Option CommentId)
  deriving DecidableEq, Repr

/-- The node that a site defines. -/
def Site.node : Site → NodeRef
  | .decl none => .sentinel .decl
  | .decl (some id) => .decl id
  | .stmt none => .sentinel .stmt
  | .stmt (some id) => .stmt id
  | .comment none => .sentinel .comment
  | .comment (some id) => .comment id

/-- A leaf of a layout. -/
inductive Item where
  | scalar (s : Scalar)
  | identity (node : NodeRef)
  | location (loc : Option SourceLocation)
  | define (site : Site)
  | fault (e : ExportError)
  deriving DecidableEq, Repr

/-- A document with slots, whose containers declare their sizes. -/
inductive Layout where
  | leaf (a : Item)
  | object (size : Nat) (fields : List (String × Layout))
  | array (size : Nat) (items : List Layout)
  | tuple (size : Nat) (items : List Layout)
  | variant (tag : String) (argument : Layout)

/-- Named parts of an object. -/
abbrev Fields := List (String × Layout)

namespace Layout

mutual

/-- The tokens of a layout, in front of `rest`. -/
def tokensAppend : Layout → List (Token Item) → List (Token Item)
  | .leaf a, rest => .leaf a :: rest
  | .object size fs, rest => .container .object size :: fieldTokens fs (.close :: rest)
  | .array size ls, rest => .container .array size :: itemTokens ls (.close :: rest)
  | .tuple size ls, rest => .container .tuple size :: itemTokens ls (.close :: rest)
  | .variant tag l, rest => .variant tag :: l.tokensAppend (.close :: rest)

/-- The tokens of the fields of an object, in front of `rest`. -/
def fieldTokens : List (String × Layout) → List (Token Item) → List (Token Item)
  | [], rest => rest
  | (name, l) :: fs, rest => .tag name :: l.tokensAppend (fieldTokens fs rest)

/-- The tokens of the elements of an array or tuple, in front of `rest`. -/
def itemTokens : List Layout → List (Token Item) → List (Token Item)
  | [], rest => rest
  | l :: ls, rest => l.tokensAppend (itemTokens ls rest)

end

/-- The tokens of a layout in document order. -/
def tokens (l : Layout) : List (Token Item) :=
  l.tokensAppend []

mutual

/-- The document of a layout, without the sizes it declares. -/
def tree : Layout → Tree Item
  | .leaf a => .leaf a
  | .object _ fs => .object (fieldTrees fs)
  | .array _ ls => .array (itemTrees ls)
  | .tuple _ ls => .tuple (itemTrees ls)
  | .variant tag l => .variant tag l.tree

/-- The documents of the fields of an object. -/
def fieldTrees : List (String × Layout) → List (String × Tree Item)
  | [] => []
  | (name, l) :: fs => (name, l.tree) :: fieldTrees fs

/-- The documents of the elements of an array or tuple. -/
def itemTrees : List Layout → List (Tree Item)
  | [] => []
  | l :: ls => l.tree :: itemTrees ls

end

/-- The number of optional parts that are present. -/
def count (present : List Bool) : Nat :=
  present.count true

/-! ### Leaves -/

abbrev string (s : String) : Layout := .leaf (.scalar (.string s))

abbrev integer (i : Int) : Layout := .leaf (.scalar (.integer i))

abbrev unsigned (n : Nat) : Layout := .leaf (.scalar (.unsigned n))

abbrev boolean (b : Bool) : Layout := .leaf (.scalar (.boolean b))

/-- A variant without an argument. -/
abbrev simple (tag : String) : Layout := .leaf (.scalar (.simple tag))

abbrev identity (node : NodeRef) : Layout := .leaf (.identity node)

abbrev location (loc : Option SourceLocation) : Layout := .leaf (.location loc)

abbrev decl (id : DeclId) : Layout := .leaf (.define (.decl (some id)))

abbrev stmt (id : StmtId) : Layout := .leaf (.define (.stmt (some id)))

abbrev comment (id : CommentId) : Layout := .leaf (.define (.comment (some id)))

abbrev fault (e : ExportError) : Layout := .leaf (.fault e)

/-- The fault of a node of kind `k` that lacks what a level of its kind reads. -/
abbrev missing {κ : Type} [NodeKind κ] (k : κ) (expected : String) : Layout :=
  fault (.missingPayload (NodeKind.tag k) expected)

/-! ### Fields and lists -/

/-- The field `name: true` where `b` holds, and nothing otherwise. -/
def flag (name : String) (b : Bool) : Fields :=
  if b then [(name, boolean true)] else []

/-- A field that is written where it has a value. -/
def optional {α : Type} (name : String) (a : Option α) (f : α → Layout) : Fields :=
  match a with
  | none => []
  | some a => [(name, f a)]

/-- An array with one element for each entry. -/
def list {α : Type} (f : α → Layout) (as : List α) : Layout :=
  .array as.length (as.map f)

/-- A field that holds a list and is written where the list has entries. -/
def nonempty {α : Type} (name : String) (as : List α) (f : α → Layout) : Fields :=
  if as.isEmpty then [] else [(name, list f as)]

/-! ### Locations and types -/

/-- A range as the pair of its ends. -/
def range (r : SourceRange) : Layout :=
  .tuple 2 [location r.first, location r.last]

/-- The identity of a type that may be absent. -/
abbrev typePtr (t : Option TypeId) : Layout :=
  identity (NodeRef.ofType t)

/-- The type that the spellings of a qualified type need and that is not in the context. -/
def missingType? (ctx : Context) (q : QualType) : Option TypeId :=
  match q.type with
  | none => none
  | some t =>
    match ctx.type? t with
    | none => some t
    | some node => node.desugared.filter fun d => (ctx.type? d).isNone

/-- The spelling of a qualified type, its spelling without sugar where that differs, its type. The
types are looked up before they are spelled. -/
def qualType (ctx : Context) (q : QualType) : Layout :=
  match missingType? ctx q with
  | some t => fault (.danglingNode (.type t))
  | none =>
    match ctx.desugaredSpelling q, ctx.spelling q with
    | .error t, _ | .ok _, .error t => fault (.unknownType t)
    | .ok desugared, .ok raw =>
      .object (2 + desugared.isSome.toNat)
        ([("raw", string raw)] ++ optional "desugared" desugared string
          ++ [("type_ptr", typePtr q.type)])

/-! ### Names and mentions of declarations -/

/-- A name with the components of its qualified form, innermost first. -/
def declName (n : DeclName) : Layout :=
  .object 2 [("name", string n.name), ("qual_name", list string n.components)]

/-- The name of a declaration; an unnamed one has the empty name. -/
def nameOf (d : Decl) : DeclName :=
  d.name.getD DeclName.anonymous

/-- The digest of a declaration: its kind, identity, name and type. -/
def declDigest (ctx : Context) (id : DeclId) (d : Decl) : Layout :=
  let name := if d.kind.isNamed then some (nameOf d) else none
  let isHidden := d.kind.isNamed && d.flags.hidden
  let valueType := d.valueType.filter fun _ => d.kind.isValue
  .object (2 + count [name.isSome, isHidden, valueType.isSome])
    ([("kind", simple (NodeKind.name d.kind)), ("decl_pointer", identity (.decl id))]
      ++ optional "name" name declName
      ++ flag "is_hidden" isHidden
      ++ optional "qual_type" valueType (qualType ctx))

/-- A mention of a declaration by its digest. -/
def declRef (ctx : Context) (id : DeclId) : Layout :=
  match ctx.decl? id with
  | none => fault (.danglingNode (.decl id))
  | some d => declDigest ctx id d

/-! ### Attributes -/

/-- An attribute with its arguments. -/
def attrNode (id : AttrId) (a : Attr) : Layout :=
  .variant a.tag (.object (3 + count [a.isInherited, a.isImplicit])
    ([("pointer", identity (.attr id)), ("source_range", range a.range),
        ("parameters", list string a.parameters)]
      ++ flag "is_inherited" a.isInherited ++ flag "is_implicit" a.isImplicit))

def attr (ctx : Context) (id : AttrId) : Layout :=
  match ctx.attr? id with
  | none => fault (.danglingNode (.attr id))
  | some a => attrNode id a

/-! ### Qualifiers and initializers -/

/-- A component of a qualifier with the namespace it names. -/
def nestedNameSpecifier (ctx : Context) (s : NestedNameSpecifier) : Layout :=
  .object (1 + s.decl.isSome.toNat)
    ([("kind", simple s.kind.name)] ++ optional "ref" s.decl (declRef ctx))

def initializerSubject (ctx : Context) : InitializerSubject → Layout
  | .member d => .variant "Member" (declRef ctx d)
  | .delegating t => .variant "Delegating" (qualType ctx t)
  | .baseClass t isVirtual => .variant "BaseClass" (.tuple 2 [qualType ctx t, boolean isVirtual])

/-- An initializer. Its expression is defined here. -/
def ctorInitializer (ctx : Context) (i : CtorInitializer) : Layout :=
  .object (1 + i.init.isSome.toNat)
    ([("subject", initializerSubject ctx i.subject)] ++ optional "init_expr" i.init stmt)

/-! ### Nodes -/

/-- A node of kind `k`: a variant with the tag of the kind around the tuple of the fields of every
level of the kind, as `level` gives them. The kind must be concrete. -/
def node {κ : Type} [NodeKind κ] (k : κ) (level : κ → List Layout) : Layout :=
  if NodeKind.isAbstract k then fault (.abstractKind (NodeKind.family κ) (NodeKind.tag k))
  else .variant (NodeKind.tag k)
    (.tuple (NodeKind.tupleSize k) ((NodeKind.lineage k).flatMap level))

end Layout

end SyntaxExport
