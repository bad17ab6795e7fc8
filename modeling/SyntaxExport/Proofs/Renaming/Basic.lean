import Mathlib.Logic.Embedding.Basic
import SyntaxExport.Cursor
import SyntaxExport.Layout.Basic

/-!
# Renamed nodes

A renaming gives the nodes of a context and its files new positions, different ones to different
nodes. Types keep theirs. `Context.CopiedInto` says that another context has, at the new position of
every node, the node with all positions in it renamed. What else there is in that context is left
open.

The text of a node, its kind and its shape do not change: lists keep their lengths, and what is absent
stays absent.
-/

namespace SyntaxExport

/-- New positions for nodes and files. -/
structure Renaming where
  decl : DeclId ↪ DeclId
  stmt : StmtId ↪ StmtId
  comment : CommentId ↪ CommentId
  attr : AttrId ↪ AttrId
  temporary : TemporaryId ↪ TemporaryId
  file : FileId ↪ FileId

variable (ρ : Renaming)

/-! ### Locations and attributes -/

def SourceLocation.rename (loc : SourceLocation) : SourceLocation :=
  { loc with file := ρ.file loc.file }

def SourceRange.rename (r : SourceRange) : SourceRange where
  first := r.first.map (SourceLocation.rename ρ)
  last := r.last.map (SourceLocation.rename ρ)

def Attr.rename (a : Attr) : Attr :=
  { a with range := a.range.rename ρ }

/-! ### Declarations -/

def Redeclaration.rename : Redeclaration → Redeclaration
  | .first d => .first (ρ.decl d)
  | .previous d => .previous (ρ.decl d)

def DeclContext.rename (c : DeclContext) : DeclContext :=
  { c with decls := c.decls.map ρ.decl }

def NamespaceInfo.rename (info : NamespaceInfo) : NamespaceInfo :=
  { info with original := info.original.map ρ.decl }

def InitializerSubject.rename : InitializerSubject → InitializerSubject
  | .member d => .member (ρ.decl d)
  | .delegating type => .delegating type
  | .baseClass type isVirtual => .baseClass type isVirtual

def CtorInitializer.rename (i : CtorInitializer) : CtorInitializer where
  subject := i.subject.rename ρ
  init := i.init.map ρ.stmt

def FunctionInfo.rename (info : FunctionInfo) : FunctionInfo :=
  { info with
    prototypeDecls := info.prototypeDecls.map ρ.decl
    params := info.params.map ρ.decl
    ctorInitializers := info.ctorInitializers.map (CtorInitializer.rename ρ)
    body := info.body.map ρ.stmt }

def FieldInfo.rename (info : FieldInfo) : FieldInfo :=
  { info with init := info.init.map ρ.stmt, bitWidth := info.bitWidth.map ρ.stmt }

def VarInfo.rename (info : VarInfo) : VarInfo :=
  { info with init := info.init.map ρ.stmt }

def NestedNameSpecifier.rename (s : NestedNameSpecifier) : NestedNameSpecifier :=
  { s with decl := s.decl.map ρ.decl }

def UsingDirectiveInfo.rename (info : UsingDirectiveInfo) : UsingDirectiveInfo where
  usingLocation := info.usingLocation.map (SourceLocation.rename ρ)
  namespaceKeyLocation := info.namespaceKeyLocation.map (SourceLocation.rename ρ)
  qualifier := info.qualifier.map (NestedNameSpecifier.rename ρ)
  nominated := info.nominated.map ρ.decl

def NamespaceAliasInfo.rename (info : NamespaceAliasInfo) : NamespaceAliasInfo where
  namespaceLocation := info.namespaceLocation.map (SourceLocation.rename ρ)
  targetNameLocation := info.targetNameLocation.map (SourceLocation.rename ρ)
  qualifier := info.qualifier.map (NestedNameSpecifier.rename ρ)
  target := ρ.decl info.target

def ObjCMethodInfo.rename (info : ObjCMethodInfo) : ObjCMethodInfo :=
  { info with params := info.params.map ρ.decl, body := info.body.map ρ.stmt }

def ObjCCategoryInfo.rename (info : ObjCCategoryInfo) : ObjCCategoryInfo where
  classInterface := info.classInterface.map ρ.decl
  implementation := info.implementation.map ρ.decl
  protocols := info.protocols.map ρ.decl

def ObjCCategoryImplInfo.rename (info : ObjCCategoryImplInfo) : ObjCCategoryImplInfo where
  classInterface := info.classInterface.map ρ.decl
  category := info.category.map ρ.decl

def ObjCInterfaceInfo.rename (info : ObjCInterfaceInfo) : ObjCInterfaceInfo where
  superClass := info.superClass.map ρ.decl
  implementation := info.implementation.map ρ.decl
  protocols := info.protocols.map ρ.decl

def ObjCImplementationInfo.rename (info : ObjCImplementationInfo) : ObjCImplementationInfo where
  superClass := info.superClass.map ρ.decl
  classInterface := info.classInterface.map ρ.decl
  ivarInitializers := info.ivarInitializers.map (CtorInitializer.rename ρ)

def PropertyAttribute.rename : PropertyAttribute → PropertyAttribute
  | .getter method => .getter (ρ.decl method)
  | .setter method => .setter (ρ.decl method)
  | a => a

def ObjCPropertyInfo.rename (info : ObjCPropertyInfo) : ObjCPropertyInfo :=
  { info with
    classInterface := info.classInterface.map ρ.decl
    attributes := info.attributes.map (PropertyAttribute.rename ρ) }

def ObjCPropertyImplInfo.rename (info : ObjCPropertyImplInfo) : ObjCPropertyImplInfo :=
  { info with property := info.property.map ρ.decl, ivar := info.ivar.map ρ.decl }

def BlockCapture.rename (c : BlockCapture) : BlockCapture :=
  { c with captured := c.captured.map ρ.decl, copyExpr := c.copyExpr.map ρ.stmt }

def BlockInfo.rename (info : BlockInfo) : BlockInfo :=
  { info with
    params := info.params.map ρ.decl
    captures := info.captures.map (BlockCapture.rename ρ)
    body := info.body.map ρ.stmt }

def DeclPayload.rename : DeclPayload → DeclPayload
  | .namespaceDecl info => .namespaceDecl (info.rename ρ)
  | .enumConstant init => .enumConstant (init.map ρ.stmt)
  | .indirectField chain => .indirectField (chain.map ρ.decl)
  | .function info => .function (info.rename ρ)
  | .field info => .field (info.rename ρ)
  | .var info => .var (info.rename ρ)
  | .usingDirective info => .usingDirective (info.rename ρ)
  | .namespaceAlias info => .namespaceAlias (info.rename ρ)
  | .objCMethod info => .objCMethod (info.rename ρ)
  | .objCCategory info => .objCCategory (info.rename ρ)
  | .objCCategoryImpl info => .objCCategoryImpl (info.rename ρ)
  | .objCProtocol protocols => .objCProtocol (protocols.map ρ.decl)
  | .objCInterface info => .objCInterface (info.rename ρ)
  | .objCImplementation info => .objCImplementation (info.rename ρ)
  | .objCCompatibleAlias target => .objCCompatibleAlias (target.map ρ.decl)
  | .objCProperty info => .objCProperty (info.rename ρ)
  | .objCPropertyImpl info => .objCPropertyImpl (info.rename ρ)
  | .block info => .block (info.rename ρ)
  | .empty => .empty
  | .enum scope => .enum scope
  | .record info => .record info
  | .fileScopeAsm text => .fileScopeAsm text
  | .importDecl name => .importDecl name

def Decl.rename (d : Decl) : Decl :=
  { d with
    range := d.range.rename ρ
    semanticParent := d.semanticParent.map ρ.decl
    lexicalParent := d.lexicalParent.map ρ.decl
    redeclaration := d.redeclaration.map (Redeclaration.rename ρ)
    attrs := d.attrs.map ρ.attr
    fullComment := d.fullComment.map ρ.comment
    context := d.context.map (DeclContext.rename ρ)
    payload := d.payload.rename ρ }

theorem Decl.kind_rename (d : Decl) : (d.rename ρ).kind = d.kind := rfl

/-! ### Statements -/

def OverloadInfo.rename (o : OverloadInfo) : OverloadInfo :=
  { o with decls := o.decls.map ρ.decl, namingClass := o.namingClass.map ρ.decl }

def PropertyTarget.rename : PropertyTarget → PropertyTarget
  | .methods getter setter => .methods getter setter
  | .property d => .property (ρ.decl d)

def PropertyRef.rename (p : PropertyRef) : PropertyRef :=
  { p with target := p.target.rename ρ }

def StmtPayload.rename : StmtPayload → StmtPayload
  | .decls ds => .decls (ds.map ρ.decl)
  | .attributes attrs => .attributes (attrs.map ρ.attr)
  | .labelRef name target => .labelRef name (ρ.decl target)
  | .catchParam d => .catchParam (d.map ρ.decl)
  | .declRef d found => .declRef (d.map ρ.decl) (found.map ρ.decl)
  | .overload info => .overload (info.rename ρ)
  | .ivarRef d isFree => .ivarRef (ρ.decl d) isFree
  | .member isArrow d => .member isArrow (ρ.decl d)
  | .ownedDecl d => .ownedDecl (d.map ρ.decl)
  | .opaqueValue source => .opaqueValue (source.map ρ.stmt)
  | .bindTemporary t => .bindTemporary (ρ.temporary t)
  | .materializeTemporary d => .materializeTemporary (d.map ρ.decl)
  | .cleanups objects subExpr => .cleanups (objects.map ρ.decl) (ρ.stmt subExpr)
  | .new isArray arraySize initializer =>
    .new isArray (arraySize.map ρ.stmt) (initializer.map ρ.stmt)
  | .message name method target => .message name (method.map ρ.decl) target
  | .protocol d => .protocol (ρ.decl d)
  | .propertyRef ref => .propertyRef (ref.rename ρ)
  | p => p

def Stmt.rename (s : Stmt) : Stmt :=
  { s with
    range := s.range.rename ρ
    children := s.children.map (Option.map ρ.stmt)
    payload := s.payload.rename ρ }

/-! ### Comments and types -/

def Comment.rename (c : Comment) : Comment :=
  { c with range := c.range.rename ρ, children := c.children.map (Option.map ρ.comment) }

def TypePayload.rename : TypePayload → TypePayload
  | .objCObject base protocols => .objCObject base (protocols.map ρ.decl)
  | .objCInterface base protocols d => .objCInterface base (protocols.map ρ.decl) (ρ.decl d)
  | .tag d => .tag (ρ.decl d)
  | .typedef type d => .typedef type (ρ.decl d)
  | p => p

def TypeNode.rename (t : TypeNode) : TypeNode :=
  { t with payload := t.payload.rename ρ }

/-! ### Contexts -/

/-- `ctx'` has a copy of every node of `ctx` that others mention, and the types of `ctx` and no
others. -/
structure Context.MentionedIn (ctx ctx' : Context) : Prop where
  decl : ∀ {id : DeclId} {d : Decl}, ctx.decl? id = some d →
    ctx'.decl? (ρ.decl id) = some (d.rename ρ)
  attr : ∀ {id : AttrId} {a : Attr}, ctx.attr? id = some a →
    ctx'.attr? (ρ.attr id) = some (a.rename ρ)
  types : ctx'.types = ctx.types.map (TypeNode.rename ρ)

/-- `ctx'` has a copy of every node and file of `ctx`, and the types of `ctx` and no others. -/
structure Context.CopiedInto (ctx ctx' : Context) : Prop where
  file : ∀ {f : FileId} {name : String}, ctx.fileName? f = some name →
    ctx'.fileName? (ρ.file f) = some name
  decl : ∀ {id : DeclId} {d : Decl}, ctx.decl? id = some d →
    ctx'.decl? (ρ.decl id) = some (d.rename ρ)
  stmt : ∀ {id : StmtId} {s : Stmt}, ctx.stmt? id = some s →
    ctx'.stmt? (ρ.stmt id) = some (s.rename ρ)
  comment : ∀ {id : CommentId} {c : Comment}, ctx.comment? id = some c →
    ctx'.comment? (ρ.comment id) = some (c.rename ρ)
  attr : ∀ {id : AttrId} {a : Attr}, ctx.attr? id = some a →
    ctx'.attr? (ρ.attr id) = some (a.rename ρ)
  types : ctx'.types = ctx.types.map (TypeNode.rename ρ)

theorem Context.CopiedInto.mentionedIn {ctx ctx' : Context} (h : ctx.CopiedInto ρ ctx') :
    ctx.MentionedIn ρ ctx' :=
  ⟨h.decl, h.attr, h.types⟩

/-! ### References -/

def NodeRef.rename : NodeRef → NodeRef
  | .decl id => .decl (ρ.decl id)
  | .stmt id => .stmt (ρ.stmt id)
  | .comment id => .comment (ρ.comment id)
  | .attr id => .attr (ρ.attr id)
  | .temporary id => .temporary (ρ.temporary id)
  | .type id => .type id
  | .sentinel family => .sentinel family
  | .null => .null

namespace NodeRef

@[simp] theorem rename_decl (id : DeclId) : (decl id).rename ρ = .decl (ρ.decl id) := rfl

@[simp] theorem rename_stmt (id : StmtId) : (stmt id).rename ρ = .stmt (ρ.stmt id) := rfl

@[simp] theorem rename_attr (id : AttrId) : (attr id).rename ρ = .attr (ρ.attr id) := rfl

@[simp] theorem rename_temporary (id : TemporaryId) :
    (temporary id).rename ρ = .temporary (ρ.temporary id) := rfl

@[simp] theorem rename_type (id : TypeId) : (type id).rename ρ = .type id := rfl

@[simp] theorem rename_null : null.rename ρ = .null := rfl

@[simp] theorem rename_ofType (t : Option TypeId) : (ofType t).rename ρ = ofType t := by
  cases t <;> rfl

/-- Different nodes are different after they are renamed. -/
theorem rename_inj {n m : NodeRef} : n.rename ρ = m.rename ρ ↔ n = m := by
  cases n <;> cases m <;> simp [rename]

end NodeRef

def Site.rename : Site → Site
  | .decl id => .decl (id.map ρ.decl)
  | .stmt id => .stmt (id.map ρ.stmt)
  | .comment id => .comment (id.map ρ.comment)

namespace Site

@[simp] theorem rename_decl (id : Option DeclId) :
    (decl id).rename ρ = .decl (id.map ρ.decl) := rfl

@[simp] theorem rename_stmt (id : Option StmtId) :
    (stmt id).rename ρ = .stmt (id.map ρ.stmt) := rfl

@[simp] theorem rename_comment (id : Option CommentId) :
    (comment id).rename ρ = .comment (id.map ρ.comment) := rfl

end Site

/-- The slot of a renamed node. A fault stays as it is. -/
def Item.rename : Item → Item
  | .identity n => .identity (n.rename ρ)
  | .location loc => .location (loc.map (SourceLocation.rename ρ))
  | .define s => .define (s.rename ρ)
  | .scalar x => .scalar x
  | .fault e => .fault e

def Token.rename : Token Item → Token Item
  | .leaf a => .leaf (a.rename ρ)
  | t => t

def LocationCursor.rename (c : LocationCursor) : LocationCursor :=
  { c with file := c.file.map ρ.file }

end SyntaxExport
