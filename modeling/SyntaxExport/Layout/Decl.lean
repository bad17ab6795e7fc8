import SyntaxExport.Layout.Type

/-!
# Layouts of declarations

A declaration is a variant with the tag of its kind around the tuple of the fields of every level of
the kind. `Layout.declLevel` gives the fields of one level.
-/

namespace SyntaxExport.Layout

/-- The link of a declaration to another one of the same entity. -/
def redeclaration : Redeclaration → Layout
  | .first id => .variant "First" (identity (.decl id))
  | .previous id => .variant "Previous" (identity (.decl id))

/-- The fields that every declaration has. The parent is written where it is not the lexical parent
as well, as for a method defined outside its class. -/
def declInfo (ctx : Context) (node : NodeRef) (d : Decl) : Layout :=
  let parent := d.semanticParent.filter fun p => d.lexicalParent ≠ some p
  let isHidden := d.kind.isNamed && d.flags.hidden
  .object (3 + count [parent.isSome, d.redeclaration.isSome, d.owningModule.isSome, isHidden,
      d.flags.implicit, d.flags.used, d.flags.referenced, d.flags.invalid, d.fullComment.isSome])
    ([("pointer", identity node)]
      ++ optional "parent_pointer" parent (fun p => identity (.decl p))
      ++ optional "previous_decl" d.redeclaration redeclaration
      ++ [("source_range", range d.range)]
      ++ optional "owning_module" d.owningModule string
      ++ flag "is_hidden" isHidden
      ++ flag "is_implicit" d.flags.implicit
      ++ flag "is_used" d.flags.used
      ++ flag "is_this_declaration_referenced" d.flags.referenced
      ++ flag "is_invalid_decl" d.flags.invalid
      ++ [("attributes", list (attr ctx) d.attrs)]
      ++ optional "full_comment" d.fullComment comment)

/-- The children of a context that pass the filter. Every child must be in the context. -/
def keptChildren (ctx : Context) (opts : Options) : List DeclId → Except ExportError (List DeclId)
  | [] => .ok []
  | id :: ids =>
    match ctx.decl? id with
    | none => .error (.danglingNode (.decl id))
    | some d =>
      match opts.keeps ctx d with
      | .error f => .error (.unknownFile f)
      | .ok keep =>
        match keptChildren ctx opts ids with
        | .error e => .error e
        | .ok rest => .ok (if keep then id :: rest else rest)

/-- The fields of a declaration context: the children that pass the filter and the storage flags. -/
def declContext (ctx : Context) (opts : Options) (d : Decl) : List Layout :=
  let c := d.context.getD {}
  let children :=
    match keptChildren ctx opts c.decls with
    | .error e => fault e
    | .ok ids => list decl ids
  [children, .object (count [c.hasExternalLexicalStorage, c.hasExternalVisibleStorage])
    (flag "has_external_lexical_storage" c.hasExternalLexicalStorage
      ++ flag "has_external_visible_storage" c.hasExternalVisibleStorage)]

/-- The fields of a type declaration: the spelling of its type and the type. -/
def declaredType (ctx : Context) (d : Decl) : List Layout :=
  let spelling :=
    match d.typeForDecl with
    | none => simple "NoType"
    | some t =>
      match ctx.type? t with
      | none => fault (.danglingNode (.type t))
      | some node => .variant "Type" (string node.spelling)
  [spelling, typePtr d.typeForDecl]

/-! ### Payloads -/

def enumInfo (modulePrivate : Bool) (scope : Option EnumScope) : Layout :=
  .object (count [scope.isSome, modulePrivate])
    (optional "scope" scope (fun s => simple s.name) ++ flag "is_module_private" modulePrivate)

def recordInfo (modulePrivate : Bool) (info : RecordInfo) : Layout :=
  .object (count [modulePrivate, info.isCompleteDefinition])
    (flag "is_module_private" modulePrivate
      ++ flag "is_complete_definition" info.isCompleteDefinition)

/-- The bases of a C++ record, which only a complete definition has. -/
def cxxRecordInfo (info : RecordInfo) : Layout :=
  if info.isCompleteDefinition then
    .object (count [!info.bases.isEmpty, !info.virtualBases.isEmpty, info.isCLike])
      (nonempty "bases" info.bases typePtr ++ nonempty "vbases" info.virtualBases typePtr
        ++ flag "is_c_like" info.isCLike)
  else .object 0 []

def functionInfo (ctx : Context) (modulePrivate : Bool) (info : FunctionInfo) : Layout :=
  .object (count [info.storageClass.isSome, info.isInline, info.isVirtual, modulePrivate,
      info.isPure, info.isDeletedAsWritten, !info.prototypeDecls.isEmpty, !info.params.isEmpty,
      !info.ctorInitializers.isEmpty, info.body.isSome])
    (optional "storage_class" info.storageClass (fun s => string s.spelling)
      ++ flag "is_inline" info.isInline
      ++ flag "is_virtual" info.isVirtual
      ++ flag "is_module_private" modulePrivate
      ++ flag "is_pure" info.isPure
      ++ flag "is_delete_as_written" info.isDeletedAsWritten
      ++ nonempty "decls_in_prototype_scope" info.prototypeDecls decl
      ++ nonempty "parameters" info.params decl
      ++ nonempty "cxx_ctor_initializers" info.ctorInitializers (ctorInitializer ctx)
      ++ optional "body" info.body stmt)

def fieldInfo (modulePrivate : Bool) (info : FieldInfo) : Layout :=
  .object (count [info.isMutable, modulePrivate, info.init.isSome, info.bitWidth.isSome])
    (flag "is_mutable" info.isMutable
      ++ flag "is_module_private" modulePrivate
      ++ optional "init_expr" info.init stmt
      ++ optional "bit_width_expr" info.bitWidth stmt)

def ivarInfo (info : FieldInfo) : Layout :=
  let hasAccess := info.accessControl != .unspecified
  .object (count [info.isSynthesize, hasAccess])
    (flag "is_synthesize" info.isSynthesize
      ++ (if hasAccess then [("access_control", simple info.accessControl.name)] else []))

def varInfo (modulePrivate : Bool) (info : VarInfo) : Layout :=
  let hasTls := info.tlsKind != .noTls
  .object (count [info.storageClass.isSome, hasTls, modulePrivate, info.isNrvo,
      info.init.isSome])
    (optional "storage_class" info.storageClass (fun s => string s.spelling)
      ++ (if hasTls then [("tls_kind", simple info.tlsKind.name)] else [])
      ++ flag "is_module_private" modulePrivate
      ++ flag "is_nrvo_variable" info.isNrvo
      ++ optional "init_expr" info.init stmt)

def namespaceInfo (ctx : Context) (info : NamespaceInfo) : Layout :=
  .object (count [info.isInline, info.original.isSome])
    (flag "is_inline" info.isInline ++ optional "original_namespace" info.original (declRef ctx))

def usingDirectiveInfo (ctx : Context) (info : UsingDirectiveInfo) : Layout :=
  .object (2 + count [!info.qualifier.isEmpty, info.nominated.isSome])
    ([("using_location", location info.usingLocation),
        ("namespace_key_location", location info.namespaceKeyLocation)]
      ++ nonempty "nested_name_specifier_locs" info.qualifier (nestedNameSpecifier ctx)
      ++ optional "nominated_namespace" info.nominated (declRef ctx))

def namespaceAliasInfo (ctx : Context) (info : NamespaceAliasInfo) : Layout :=
  .object (3 + (!info.qualifier.isEmpty).toNat)
    ([("namespace_loc", location info.namespaceLocation),
        ("target_name_loc", location info.targetNameLocation)]
      ++ nonempty "nested_name_specifier_locs" info.qualifier (nestedNameSpecifier ctx)
      ++ [("namespace", declRef ctx info.target)])

def objCMethodInfo (ctx : Context) (info : ObjCMethodInfo) : Layout :=
  .object (1 + count [info.isInstance, !info.params.isEmpty, info.isVariadic, info.body.isSome])
    (flag "is_instance_method" info.isInstance
      ++ [("result_type", qualType ctx info.resultType)]
      ++ nonempty "parameters" info.params decl
      ++ flag "is_variadic" info.isVariadic
      ++ optional "body" info.body stmt)

def objCCategoryInfo (ctx : Context) (info : ObjCCategoryInfo) : Layout :=
  .object (count [info.classInterface.isSome, info.implementation.isSome,
      !info.protocols.isEmpty])
    (optional "class_interface" info.classInterface (declRef ctx)
      ++ optional "implementation" info.implementation (declRef ctx)
      ++ nonempty "protocols" info.protocols (declRef ctx))

def objCCategoryImplInfo (ctx : Context) (info : ObjCCategoryImplInfo) : Layout :=
  .object (count [info.classInterface.isSome, info.category.isSome])
    (optional "class_interface" info.classInterface (declRef ctx)
      ++ optional "category_decl" info.category (declRef ctx))

def objCInterfaceInfo (ctx : Context) (info : ObjCInterfaceInfo) : Layout :=
  .object (count [info.superClass.isSome, info.implementation.isSome, !info.protocols.isEmpty])
    (optional "super" info.superClass (declRef ctx)
      ++ optional "implementation" info.implementation (declRef ctx)
      ++ nonempty "protocols" info.protocols (declRef ctx))

def objCImplementationInfo (ctx : Context) (info : ObjCImplementationInfo) : Layout :=
  .object (count [info.superClass.isSome, info.classInterface.isSome,
      !info.ivarInitializers.isEmpty])
    (optional "super" info.superClass (declRef ctx)
      ++ optional "class_interface" info.classInterface (declRef ctx)
      ++ nonempty "ivar_initializers" info.ivarInitializers (ctorInitializer ctx))

def propertyAttribute (ctx : Context) : PropertyAttribute → Layout
  | .readonly => simple "Readonly"
  | .assign => simple "Assign"
  | .readwrite => simple "Readwrite"
  | .retain => simple "Retain"
  | .copy => simple "Copy"
  | .nonatomic => simple "Nonatomic"
  | .atomic => simple "Atomic"
  | .weak => simple "Weak"
  | .strong => simple "Strong"
  | .unsafeUnretained => simple "Unsafe_unretained"
  | .getter method => .variant "Getter" (declRef ctx method)
  | .setter method => .variant "Setter" (declRef ctx method)

def objCPropertyInfo (ctx : Context) (info : ObjCPropertyInfo) : Layout :=
  let hasControl := info.control != .unspecified
  .object (1 + count [info.classInterface.isSome, hasControl, !info.attributes.isEmpty])
    (optional "class_interface" info.classInterface (declRef ctx)
      ++ [("qual_type", qualType ctx info.type)]
      ++ (if hasControl then [("property_control", simple info.control.name)] else [])
      ++ nonempty "property_attributes" info.attributes (propertyAttribute ctx))

def objCPropertyImplInfo (ctx : Context) (info : ObjCPropertyImplInfo) : Layout :=
  .object (1 + count [info.property.isSome, info.ivar.isSome])
    ([("implementation", simple info.implementation.name)]
      ++ optional "property_decl" info.property (declRef ctx)
      ++ optional "ivar_decl" info.ivar (declRef ctx))

def blockCapture (ctx : Context) (c : BlockCapture) : Layout :=
  .object (count [c.isByRef, c.isNested, c.captured.isSome, c.copyExpr.isSome])
    (flag "is_by_ref" c.isByRef
      ++ flag "is_nested" c.isNested
      ++ optional "variable" c.captured (declRef ctx)
      ++ optional "copy_expr" c.copyExpr stmt)

def blockInfo (ctx : Context) (info : BlockInfo) : Layout :=
  .object (count [!info.params.isEmpty, info.isVariadic, info.capturesCxxThis,
      !info.captures.isEmpty, info.body.isSome])
    (nonempty "parameters" info.params decl
      ++ flag "is_variadic" info.isVariadic
      ++ flag "captures_cxx_this" info.capturesCxxThis
      ++ nonempty "captured_variables" info.captures (blockCapture ctx)
      ++ optional "body" info.body stmt)

/-! ### Levels -/

/-- What a level of the kind of a declaration reads from the payload. -/
def declPayload (ctx : Context) (d : Decl) : DeclKind → Layout
  | .block =>
    match d.payload with
    | .block info => blockInfo ctx info
    | _ => missing d.kind "block info"
  | .namespaceDecl =>
    match d.payload with
    | .namespaceDecl info => namespaceInfo ctx info
    | _ => missing d.kind "namespace info"
  | .enum =>
    match d.payload with
    | .enum scope => enumInfo d.flags.modulePrivate scope
    | _ => missing d.kind "enum info"
  | .record =>
    match d.payload with
    | .record info => recordInfo d.flags.modulePrivate info
    | _ => missing d.kind "record info"
  | .cxxRecord =>
    match d.payload with
    | .record info => cxxRecordInfo info
    | _ => missing d.kind "record info"
  | .enumConstant =>
    match d.payload with
    | .enumConstant init => .object init.isSome.toNat (optional "init_expr" init stmt)
    | _ => missing d.kind "enum constant initializer"
  | .indirectField =>
    match d.payload with
    | .indirectField chain => list (declRef ctx) chain
    | _ => missing d.kind "field chain"
  | .function =>
    match d.payload with
    | .function info => functionInfo ctx d.flags.modulePrivate info
    | _ => missing d.kind "function info"
  | .field =>
    match d.payload with
    | .field info => fieldInfo d.flags.modulePrivate info
    | _ => missing d.kind "field info"
  | .var =>
    match d.payload with
    | .var info => varInfo d.flags.modulePrivate info
    | _ => missing d.kind "variable info"
  | .fileScopeAsm =>
    match d.payload with
    | .fileScopeAsm text => string text
    | _ => missing d.kind "assembly text"
  | .importDecl =>
    match d.payload with
    | .importDecl name => string name
    | _ => missing d.kind "module name"
  | .usingDirective =>
    match d.payload with
    | .usingDirective info => usingDirectiveInfo ctx info
    | _ => missing d.kind "using directive info"
  | .namespaceAlias =>
    match d.payload with
    | .namespaceAlias info => namespaceAliasInfo ctx info
    | _ => missing d.kind "namespace alias info"
  | .objCIvar =>
    match d.payload with
    | .field info => ivarInfo info
    | _ => missing d.kind "ivar info"
  | .objCMethod =>
    match d.payload with
    | .objCMethod info => objCMethodInfo ctx info
    | _ => missing d.kind "method info"
  | .objCCategory =>
    match d.payload with
    | .objCCategory info => objCCategoryInfo ctx info
    | _ => missing d.kind "category info"
  | .objCCategoryImpl =>
    match d.payload with
    | .objCCategoryImpl info => objCCategoryImplInfo ctx info
    | _ => missing d.kind "category implementation info"
  | .objCProtocol =>
    match d.payload with
    | .objCProtocol protocols =>
      .object (!protocols.isEmpty).toNat (nonempty "protocols" protocols (declRef ctx))
    | _ => missing d.kind "protocol list"
  | .objCInterface =>
    match d.payload with
    | .objCInterface info => objCInterfaceInfo ctx info
    | _ => missing d.kind "interface info"
  | .objCImplementation =>
    match d.payload with
    | .objCImplementation info => objCImplementationInfo ctx info
    | _ => missing d.kind "implementation info"
  | .objCCompatibleAlias =>
    match d.payload with
    | .objCCompatibleAlias target =>
      .object target.isSome.toNat (optional "class_interface" target (declRef ctx))
    | _ => missing d.kind "aliased interface"
  | .objCProperty =>
    match d.payload with
    | .objCProperty info => objCPropertyInfo ctx info
    | _ => missing d.kind "property info"
  | .objCPropertyImpl =>
    match d.payload with
    | .objCPropertyImpl info => objCPropertyImplInfo ctx info
    | _ => missing d.kind "property implementation info"
  | _ =>
    .object (count [d.flags.modulePrivate]) (flag "is_module_private" d.flags.modulePrivate)

/-- The fields that a level adds to the tuple of a declaration. -/
def declLevel (ctx : Context) (opts : Options) (node : NodeRef) (d : Decl) :
    DeclKind → List Layout
  | .decl => [declInfo ctx node d]
  | .named => [declName (nameOf d)]
  | .type => declaredType ctx d
  | .value => [qualType ctx (d.valueType.getD QualType.null)]
  | .captured | .linkageSpec | .objCContainer | .tag => declContext ctx opts d
  | .translationUnit => declContext ctx opts d ++ [typeList ctx]
  | .block => declContext ctx opts d ++ [declPayload ctx d .block]
  | .namespaceDecl => declContext ctx opts d ++ [declPayload ctx d .namespaceDecl]
  | level => if level.ownFieldCount = 0 then [] else [declPayload ctx d level]

/-- The declaration written in place of an absent one. -/
def sentinelDecl : Decl :=
  { kind := .empty }

/-- A declaration, which must have a concrete kind. -/
def declNode (ctx : Context) (opts : Options) (node : NodeRef) (d : Decl) : Layout :=
  Layout.node d.kind (declLevel ctx opts node d)

/-! ### The number of fields of a level -/

theorem length_declLevel (ctx : Context) (opts : Options) (node : NodeRef) (d : Decl)
    (level : DeclKind) :
    (declLevel ctx opts node d level).length = NodeKind.ownFieldCount level := by
  cases level <;> rfl

end SyntaxExport.Layout
