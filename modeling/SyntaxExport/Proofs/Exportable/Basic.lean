import SyntaxExport.Proofs.Pass.Sound

/-!
# Translation units that can be exported

What a node must be so that a document can be written through it: its kind is concrete, the levels of
the kind find the facets and the payload that they read, and whatever the node looks up is in the
context. A translation unit can be exported if all types are such nodes, and all nodes that are defined
inside it and not dropped by the filter (`Context.Exportable`).

Which payload a level reads is listed for each family (`accepts?`), and so is what a payload looks up
(`mentions`). Identities are no lookups: parents, redeclarations and the types that other types are made
of need not be in the context.
-/

namespace SyntaxExport

open Relation (ReflTransGen)

/-! ### Lookups -/

/-- What a node looks up in the context in order to mention it. -/
inductive Mention where
  /-- A declaration, for its digest. -/
  | digest (id : DeclId)
  /-- A qualified type, for its spellings. -/
  | spelling (q : QualType)
  | attr (id : AttrId)
  deriving DecidableEq, Repr

namespace Context

variable (ctx : Context)

/-- The type of a qualified type is in the context, and so is that type without its sugar. -/
def Spells (q : QualType) : Prop :=
  ∀ t ∈ q.type, ∃ node, ctx.type? t = some node ∧ ∀ d ∈ node.desugared, (ctx.type? d).isSome

/-- A declaration is in the context, and so are the types that its digest spells. -/
def Digests (id : DeclId) : Prop :=
  ∃ d, ctx.decl? id = some d ∧ (d.kind.isValue → ∀ q ∈ d.valueType, ctx.Spells q)

/-- What is mentioned is in the context. -/
def Resolves : Mention → Prop
  | .digest id => ctx.Digests id
  | .spelling q => ctx.Spells q
  | .attr id => (ctx.attr? id).isSome

@[simp] theorem resolves_digest (id : DeclId) : ctx.Resolves (.digest id) ↔ ctx.Digests id := Iff.rfl

@[simp] theorem resolves_spelling (q : QualType) : ctx.Resolves (.spelling q) ↔ ctx.Spells q := Iff.rfl

@[simp] theorem resolves_attr (id : AttrId) : ctx.Resolves (.attr id) ↔ (ctx.attr? id).isSome := Iff.rfl

/-- Everything that is mentioned is in the context. -/
def ResolvesAll (ms : List Mention) : Prop :=
  ∀ m ∈ ms, ctx.Resolves m

@[simp] theorem resolvesAll_nil : ctx.ResolvesAll [] :=
  nofun

@[simp] theorem resolvesAll_cons (m : Mention) (ms : List Mention) :
    ctx.ResolvesAll (m :: ms) ↔ ctx.Resolves m ∧ ctx.ResolvesAll ms :=
  List.forall_mem_cons

@[simp] theorem resolvesAll_append (ms ns : List Mention) :
    ctx.ResolvesAll (ms ++ ns) ↔ ctx.ResolvesAll ms ∧ ctx.ResolvesAll ns :=
  List.forall_mem_append

@[simp] theorem resolvesAll_map {α : Type} (f : α → Mention) (as : List α) :
    ctx.ResolvesAll (as.map f) ↔ ∀ a ∈ as, ctx.Resolves (f a) :=
  List.forall_mem_map

@[simp] theorem resolvesAll_flatMap {α : Type} (f : α → List Mention) (as : List α) :
    ctx.ResolvesAll (as.flatMap f) ↔ ∀ a ∈ as, ctx.ResolvesAll (f a) := by
  simp only [ResolvesAll, List.mem_flatMap]
  exact ⟨fun h a ha m hm => h m ⟨a, ha, hm⟩, fun h m ⟨a, ha, hm⟩ => h a ha m hm⟩

end Context

/-! ### Payloads -/

/-- The payloads that a level of the kind of a declaration reads, for the levels that read one. -/
def DeclKind.accepts? : DeclKind → Option (DeclPayload → Bool)
  | .block => some (· matches .block _)
  | .namespaceDecl => some (· matches .namespaceDecl _)
  | .enum => some (· matches .enum _)
  | .record | .cxxRecord => some (· matches .record _)
  | .enumConstant => some (· matches .enumConstant _)
  | .indirectField => some (· matches .indirectField _)
  | .function => some (· matches .function _)
  | .field | .objCIvar => some (· matches .field _)
  | .var => some (· matches .var _)
  | .fileScopeAsm => some (· matches .fileScopeAsm _)
  | .importDecl => some (· matches .importDecl _)
  | .usingDirective => some (· matches .usingDirective _)
  | .namespaceAlias => some (· matches .namespaceAlias _)
  | .objCMethod => some (· matches .objCMethod _)
  | .objCCategory => some (· matches .objCCategory _)
  | .objCCategoryImpl => some (· matches .objCCategoryImpl _)
  | .objCProtocol => some (· matches .objCProtocol _)
  | .objCInterface => some (· matches .objCInterface _)
  | .objCImplementation => some (· matches .objCImplementation _)
  | .objCCompatibleAlias => some (· matches .objCCompatibleAlias _)
  | .objCProperty => some (· matches .objCProperty _)
  | .objCPropertyImpl => some (· matches .objCPropertyImpl _)
  | _ => none

/-- What casts of all kinds have. -/
def StmtPayload.cast? : StmtPayload → Option CastInfo
  | .cast info => some info
  | _ => none

/-- The payloads that a level of the kind of a statement reads, for the levels that read one. -/
def StmtKind.accepts? : StmtKind → Option (StmtPayload → Bool)
  | .declStmt => some (· matches .decls _)
  | .attributedStmt => some (· matches .attributes _)
  | .labelStmt => some (· matches .label _)
  | .gotoStmt | .addrLabelExpr => some (· matches .labelRef ..)
  | .cxxCatchStmt | .objCAtCatchStmt => some (· matches .catchParam _)
  | .castExpr => some (· matches .cast _)
  | .explicitCastExpr => some fun p => p.cast?.any (·.writtenType.isSome)
  | .cxxNamedCastExpr => some fun p => p.cast?.any (·.castName.isSome)
  | .declRefExpr => some (· matches .declRef ..)
  | .overloadExpr | .unresolvedLookupExpr => some (· matches .overload _)
  | .objCIvarRefExpr => some (· matches .ivarRef ..)
  | .predefinedExpr => some (· matches .predefined _)
  | .characterLiteral => some (· matches .characterLiteral _)
  | .integerLiteral => some (· matches .integerLiteral ..)
  | .floatingLiteral => some (· matches .floatingLiteral _)
  | .stringLiteral => some (· matches .stringLiteral _)
  | .unaryOperator => some (· matches .unary _)
  | .unaryExprOrTypeTraitExpr => some (· matches .unaryTrait ..)
  | .memberExpr => some (· matches .member ..)
  | .extVectorElementExpr => some (· matches .accessor _)
  | .binaryOperator => some (· matches .binary ..)
  | .compoundAssignOperator => some (· matches .binary _ (some _))
  | .blockExpr | .lambdaExpr => some (· matches .ownedDecl _)
  | .opaqueValueExpr => some (· matches .opaqueValue _)
  | .cxxBoolLiteralExpr | .objCBoolLiteralExpr => some (· matches .boolLiteral _)
  | .cxxConstructExpr => some (· matches .construct ..)
  | .cxxBindTemporaryExpr => some (· matches .bindTemporary _)
  | .materializeTemporaryExpr => some (· matches .materializeTemporary _)
  | .exprWithCleanups => some (· matches .cleanups ..)
  | .cxxNewExpr => some (· matches .new ..)
  | .cxxDeleteExpr => some (· matches .delete _)
  | .objCMessageExpr => some (· matches .message ..)
  | .objCBoxedExpr | .objCSelectorExpr => some (· matches .selector _)
  | .objCEncodeExpr => some (· matches .encoded _)
  | .objCProtocolExpr => some (· matches .protocol _)
  | .objCPropertyRefExpr => some (· matches .propertyRef _)
  | .objCSubscriptRefExpr => some (· matches .subscriptRef ..)
  | _ => none

/-- The payloads that a level of the kind of a type reads, for the levels that read one. -/
def TypeKind.accepts? : TypeKind → Option (TypePayload → Bool)
  | .pointer | .blockPointer | .reference | .memberPointer | .array | .paren | .adjusted
  | .decltype | .objCObjectPointer | .atomic => some (·.child?.isSome)
  | .constantArray => some (· matches .constantArray ..)
  | .builtin => some (· matches .builtin _)
  | .function | .functionProto => some (· matches .function ..)
  | .objCObject => some (· matches .objCObject .. | .objCInterface ..)
  | .objCInterface => some (· matches .objCInterface ..)
  | .tag => some (· matches .tag _)
  | .typedef => some (· matches .typedef ..)
  | _ => none

/-- The payloads that a level of the kind of a comment reads, for the levels that read one. -/
def CommentKind.accepts? : CommentKind → Option (CommentPayload → Bool)
  | .inlineCommandComment => some (· matches .inlineCommand ..)
  | .htmlTagComment => some (·.htmlTag?.isSome)
  | .htmlStartTagComment => some (· matches .htmlStartTag ..)
  | .blockCommandComment => some (·.command?.isSome)
  | .paramCommandComment => some (· matches .paramCommand ..)
  | .tParamCommandComment => some (· matches .tParamCommand ..)
  | .verbatimBlockComment => some (· matches .verbatimBlock ..)
  | .verbatimLineComment => some (· matches .verbatimLine ..)
  | .textComment | .verbatimBlockLineComment => some (· matches .text _)
  | _ => none

/-! ### Mentions -/

def NestedNameSpecifier.mentions (s : NestedNameSpecifier) : List Mention :=
  s.decl.toList.map .digest

def BlockCapture.mentions (c : BlockCapture) : List Mention :=
  c.captured.toList.map .digest

def InitializerSubject.mention : InitializerSubject → Mention
  | .member d => .digest d
  | .delegating type | .baseClass type _ => .spelling type

def PropertyAttribute.mentions : PropertyAttribute → List Mention
  | .getter method | .setter method => [.digest method]
  | _ => []

def Receiver.mentions : Receiver → List Mention
  | .ofClass type => [.spelling type]
  | _ => []

def PropertyTarget.mentions : PropertyTarget → List Mention
  | .property d => [.digest d]
  | .methods _ _ => []

/-- What the levels that read a payload look up, besides what is defined inside the declaration. -/
def DeclPayload.mentions : DeclPayload → List Mention
  | .namespaceDecl info => info.original.toList.map .digest
  | .indirectField chain => chain.map .digest
  | .function info => info.ctorInitializers.map (·.subject.mention)
  | .usingDirective info => info.qualifier.flatMap (·.mentions) ++ info.nominated.toList.map .digest
  | .namespaceAlias info => info.qualifier.flatMap (·.mentions) ++ [.digest info.target]
  | .objCMethod info => [.spelling info.resultType]
  | .objCCategory info => (info.classInterface.toList ++ info.implementation.toList
      ++ info.protocols).map .digest
  | .objCCategoryImpl info => (info.classInterface.toList ++ info.category.toList).map .digest
  | .objCProtocol protocols => protocols.map .digest
  | .objCInterface info => (info.superClass.toList ++ info.implementation.toList
      ++ info.protocols).map .digest
  | .objCImplementation info => (info.superClass.toList ++ info.classInterface.toList).map .digest
      ++ info.ivarInitializers.map (·.subject.mention)
  | .objCCompatibleAlias target => target.toList.map .digest
  | .objCProperty info => info.classInterface.toList.map .digest
      ++ .spelling info.type :: info.attributes.flatMap (·.mentions)
  | .objCPropertyImpl info => (info.property.toList ++ info.ivar.toList).map .digest
  | .block info => info.captures.flatMap (·.mentions)
  | _ => []

/-- What a level that reads a payload looks up, besides what is defined inside the statement. -/
def StmtPayload.mentions (level : StmtKind) : StmtPayload → List Mention
  | .attributes attrs => attrs.map .attr
  | .cast info => if level = .explicitCastExpr then info.writtenType.toList.map .spelling else []
  | .declRef d found => (d.toList ++ found.toList).map .digest
  | .overload info => if level = .unresolvedLookupExpr then info.namingClass.toList.map .digest
      else info.decls.map .digest
  | .ivarRef d _ | .member _ d | .protocol d => [.digest d]
  | .unaryTrait _ type => type.toList.map .spelling
  | .binary _ types => if level = .compoundAssignOperator then
      types.toList.flatMap fun t => [.spelling t.lhs, .spelling t.result] else []
  | .construct type _ _ | .encoded type => [.spelling type]
  | .materializeTemporary d => d.toList.map .digest
  | .cleanups objects _ => objects.map .digest
  | .message _ _ receiver => receiver.mentions
  | .propertyRef ref => ref.target.mentions
  | _ => []

/-! ### Locations -/

/-- The locations of a payload. -/
def DeclPayload.locations : DeclPayload → List SourceLocation
  | .usingDirective info => info.usingLocation.toList ++ info.namespaceKeyLocation.toList
  | .namespaceAlias info => info.namespaceLocation.toList ++ info.targetNameLocation.toList
  | _ => []

/-! ### Nodes -/

/-- A declaration with a concrete kind, the payload that its levels read, and everything that it looks
up: attributes, children whether or not the filter keeps them, types, and what its payload mentions. -/
structure Decl.Complete (ctx : Context) (d : Decl) : Prop where
  concrete : NodeKind.isAbstract d.kind = false
  payload : ∀ level ∈ NodeKind.lineage d.kind, ∀ accepts ∈ level.accepts?,
    accepts d.payload ∧ ctx.ResolvesAll d.payload.mentions
  attrs : ∀ a ∈ d.attrs, (ctx.attr? a).isSome
  children : d.kind.isDeclContext → ∀ c ∈ (d.context.getD {}).decls, (ctx.decl? c).isSome
  declaredType : NodeKind.inherits d.kind .type → ∀ t ∈ d.typeForDecl, (ctx.type? t).isSome
  valueType : d.kind.isValue → ∀ q ∈ d.valueType, ctx.Spells q

/-- A statement with a concrete kind, the payload that its levels read, the facet of expressions where
it is one, and everything that it looks up. -/
structure Stmt.Complete (ctx : Context) (s : Stmt) : Prop where
  concrete : NodeKind.isAbstract s.kind = false
  payload : ∀ level ∈ NodeKind.lineage s.kind, ∀ accepts ∈ level.accepts?,
    accepts s.payload ∧ ctx.ResolvesAll (s.payload.mentions level)
  children : ∀ c, some c ∈ s.children → (ctx.stmt? c).isSome
  expr : s.kind.isExpr → ∃ e, s.expr = some e ∧ ctx.Spells e.type

/-- A comment with a concrete kind, the payload that its levels read, and its children. -/
structure Comment.Complete (ctx : Context) (c : Comment) : Prop where
  concrete : NodeKind.isAbstract c.kind = false
  payload : ∀ level ∈ NodeKind.lineage c.kind, ∀ accepts ∈ level.accepts?, accepts c.payload
  children : ∀ i, some i ∈ c.children → (ctx.comment? i).isSome

/-- A type with a concrete kind and the payload that its levels read. -/
structure TypeNode.Complete (t : TypeNode) : Prop where
  concrete : NodeKind.isAbstract t.kind = false
  payload : ∀ level ∈ NodeKind.lineage t.kind, ∀ accepts ∈ level.accepts?, accepts t.payload

namespace Context

variable (ctx : Context) (opts : Options)

/-- The node is in the context, and complete. -/
def HasComplete : Visit → Prop
  | .decl id => ∃ d, ctx.decl? id = some d ∧ d.Complete ctx
  | .stmt id => ∃ s, ctx.stmt? id = some s ∧ s.Complete ctx
  | .type id => ∃ t, ctx.type? id = some t ∧ t.Complete
  | .comment id => ∃ c, ctx.comment? id = some c ∧ c.Complete ctx

/-- `u` is exported inside `v`: as its comment, as a child that the filter keeps, as a child of a
statement or comment, or by a payload that a level of the kind reads. -/
inductive Exports : Visit → Visit → Prop where
  | comment {id : DeclId} {d : Decl} {c : CommentId} : ctx.decl? id = some d →
    d.fullComment = some c → Exports (.decl id) (.comment c)
  | child {id c : DeclId} {d child : Decl} : ctx.decl? id = some d → d.kind.isDeclContext →
    c ∈ (d.context.getD {}).decls → ctx.decl? c = some child → opts.keeps ctx child = .ok true →
    Exports (.decl id) (.decl c)
  | declPayload {id : DeclId} {d : Decl} {level : DeclKind} {accepts : DeclPayload → Bool}
    {u : Visit} : ctx.decl? id = some d → level ∈ NodeKind.lineage d.kind →
    level.accepts? = some accepts → accepts d.payload → u ∈ d.payload.definitions →
    Exports (.decl id) u
  | operand {id c : StmtId} {s : Stmt} : ctx.stmt? id = some s → some c ∈ s.children →
    Exports (.stmt id) (.stmt c)
  | stmtPayload {id : StmtId} {s : Stmt} {level : StmtKind} {accepts : StmtPayload → Bool}
    {u : Visit} : ctx.stmt? id = some s → level ∈ NodeKind.lineage s.kind →
    level.accepts? = some accepts → accepts s.payload → u ∈ s.payload.definitions →
    Exports (.stmt id) u
  | part {id i : CommentId} {c : Comment} : ctx.comment? id = some c → some i ∈ c.children →
    Exports (.comment id) (.comment i)

/-- All locations are in files of the context. -/
structure KnowsLocations : Prop where
  decls : ∀ d ∈ ctx.decls, ctx.KnowsRange d.range
    ∧ ∀ l ∈ d.payload.locations, (ctx.fileName? l.file).isSome
  stmts : ∀ s ∈ ctx.stmts, ctx.KnowsRange s.range
  comments : ∀ c ∈ ctx.comments, ctx.KnowsRange c.range
  attrs : ∀ a ∈ ctx.attrs, ctx.KnowsRange a.range

/-- All types are complete, and everything that is exported inside the translation unit is in the
context and complete. -/
structure Exportable (root : DeclId) : Prop where
  types : ∀ t ∈ ctx.types, t.Complete
  nodes : ∀ v, ReflTransGen (ctx.Exports opts) (.decl root) v → ctx.HasComplete v

end Context

end SyntaxExport
