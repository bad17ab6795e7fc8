import SyntaxExport.Layout.Basic

/-!
# Layouts of statements

Operands that a statement reaches other than as its children are mentioned by identity; they are
defined where they appear as children.
-/

namespace SyntaxExport.Layout

/-- Whether a child is present and not in the context. -/
def isStmtMissing (ctx : Context) : Option StmtId → Bool
  | none => false
  | some id => (ctx.stmt? id).isNone

/-- The children of a statement, all of which must be in the context. -/
def stmtChildren (ctx : Context) (s : Stmt) : Layout :=
  match s.children.find? (isStmtMissing ctx) with
  | some (some id) => fault (.danglingNode (.stmt id))
  | _ => list (fun child => .leaf (.define (.stmt child))) s.children

/-! ### Payloads -/

def exprInfo (ctx : Context) (e : ExprInfo) : Layout :=
  let hasValueKind := e.valueKind != .rvalue
  let hasObjectKind := e.objectKind != .ordinary
  .object (1 + count [hasValueKind, hasObjectKind])
    ([("qual_type", qualType ctx e.type)]
      ++ (if hasValueKind then [("value_kind", simple e.valueKind.name)] else [])
      ++ (if hasObjectKind then [("object_kind", simple e.objectKind.name)] else []))

def castBase (b : CastBase) : Layout :=
  .object (1 + b.isVirtual.toNat) ([("name", string b.name)] ++ flag "is_virtual" b.isVirtual)

def castInfo (c : CastInfo) : Layout :=
  .object 2 [("cast_kind", simple c.kind.name), ("base_path", list castBase c.basePath)]

def labelRef (name : String) (target : DeclId) : Layout :=
  .object 2 [("label", string name), ("pointer", identity (.decl target))]

def overloadInfo (ctx : Context) (o : OverloadInfo) : Layout :=
  .object (1 + (!o.decls.isEmpty).toNat)
    (nonempty "decls" o.decls (declRef ctx)
      ++ [("name", .object 2 [("kind", simple o.nameKind.name), ("name", string o.name)])])

def lookupInfo (ctx : Context) (o : OverloadInfo) : Layout :=
  .object (count [o.requiresAdl, o.isOverloaded, o.namingClass.isSome])
    (flag "requires_ADL" o.requiresAdl ++ flag "is_overloaded" o.isOverloaded
      ++ optional "naming_class" o.namingClass (declRef ctx))

def ivarRef (ctx : Context) (d : DeclId) (isFree : Bool) : Layout :=
  .object (2 + isFree.toNat)
    ([("decl_ref", declRef ctx d), ("pointer", identity (.decl d))] ++ flag "is_free_ivar" isFree)

def integerLiteral (isSigned : Bool) (bitwidth : Nat) (value : String) : Layout :=
  .object (2 + isSigned.toNat)
    (flag "is_signed" isSigned ++ [("bitwidth", unsigned bitwidth), ("value", string value)])

def unaryInfo (op : UnaryOpcode) : Layout :=
  .object (1 + op.isPostfix.toNat)
    ([("kind", simple op.name)] ++ flag "is_postfix" op.isPostfix)

/-- A member access. The member must be in the context. -/
def memberInfo (ctx : Context) (isArrow : Bool) (id : DeclId) : Layout :=
  match ctx.decl? id with
  | none => fault (.danglingNode (.decl id))
  | some d =>
    .object (2 + isArrow.toNat)
      (flag "is_arrow" isArrow
        ++ [("name", declName (nameOf d)), ("decl_ref", declDigest ctx id d)])

def constructInfo (ctx : Context) (type : QualType) (isElidable requiresZeroInit : Bool) : Layout :=
  .object (1 + count [isElidable, requiresZeroInit])
    ([("qual_type", qualType ctx type)] ++ flag "is_elidable" isElidable
      ++ flag "requires_zero_initialization" requiresZeroInit)

def cleanupsInfo (ctx : Context) (objects : List DeclId) (subExpr : StmtId) : Layout :=
  .object (1 + (!objects.isEmpty).toNat)
    (nonempty "decl_refs" objects (declRef ctx) ++ [("sub_expr", identity (.stmt subExpr))])

def newInfo (isArray : Bool) (arraySize initializer : Option StmtId) : Layout :=
  .object (count [isArray, arraySize.isSome, initializer.isSome])
    (flag "is_array" isArray
      ++ optional "array_size_expr" arraySize (fun e => identity (.stmt e))
      ++ optional "initializer_expr" initializer (fun e => identity (.stmt e)))

/-- The receiver of a message. -/
def receiver (ctx : Context) : Receiver → Layout
  | .object => simple "Instance"
  | .ofClass type => .variant "Class" (qualType ctx type)
  | .superObject => simple "SuperInstance"
  | .superClass => simple "SuperClass"

/-- A message. The receiver is written where it is no plain object. -/
def messageInfo (ctx : Context) (selector : String) (method : Option DeclId)
    (target : Receiver) : Layout :=
  let hasReceiver := target != .object
  .object (1 + count [method.isSome, method.isSome, hasReceiver])
    ([("selector", string selector)]
      ++ flag "is_definition_found" method.isSome
      ++ optional "decl_pointer" method (fun m => identity (.decl m))
      ++ (if hasReceiver then [("receiver_kind", receiver ctx target)] else []))

/-- The selectors of the accessors of an implicit property. -/
def accessorNames (getter setter : Option String) : Fields :=
  optional "getter" getter string ++ optional "setter" setter string

def propertyTarget (ctx : Context) : PropertyTarget → Layout
  | .methods getter setter =>
    .variant "MethodRef"
      (.object (count [getter.isSome, setter.isSome]) (accessorNames getter setter))
  | .property d => .variant "PropertyRef" (declRef ctx d)

def propertyRefInfo (ctx : Context) (p : PropertyRef) : Layout :=
  .object (1 + count [p.isSuperReceiver, p.isMessagingGetter, p.isMessagingSetter])
    ([("kind", propertyTarget ctx p.target)]
      ++ flag "is_super_receiver" p.isSuperReceiver
      ++ flag "is_messaging_getter" p.isMessagingGetter
      ++ flag "is_messaging_setter" p.isMessagingSetter)

def subscriptRefInfo (kind : SubscriptKind) (getter setter : Option String) : Layout :=
  .object (1 + count [getter.isSome, setter.isSome])
    ([("kind", simple kind.name)] ++ accessorNames getter setter)

/-! ### Levels -/

/-- What a level of the kind of a statement reads from the payload. -/
def stmtPayload (ctx : Context) (s : Stmt) : StmtKind → Layout
  | .declStmt =>
    match s.payload with
    | .decls ds => list decl ds
    | _ => missing s.kind "declarations"
  | .attributedStmt =>
    match s.payload with
    | .attributes attrs => list (attr ctx) attrs
    | _ => missing s.kind "attributes"
  | .labelStmt =>
    match s.payload with
    | .label name => string name
    | _ => missing s.kind "label name"
  | .gotoStmt | .addrLabelExpr =>
    match s.payload with
    | .labelRef name target => labelRef name target
    | _ => missing s.kind "label reference"
  | .cxxCatchStmt =>
    match s.payload with
    | .catchParam d => .object d.isSome.toNat (optional "variable" d decl)
    | _ => missing s.kind "catch parameter"
  | .objCAtCatchStmt =>
    match s.payload with
    | .catchParam (some d) => .variant "CatchParam" (decl d)
    | .catchParam none => simple "CatchAll"
    | _ => missing s.kind "catch parameter"
  | .castExpr =>
    match s.payload with
    | .cast info => castInfo info
    | _ => missing s.kind "cast info"
  | .explicitCastExpr =>
    match s.payload with
    | .cast info =>
      match info.writtenType with
      | some type => qualType ctx type
      | none => missing s.kind "written type"
    | _ => missing s.kind "cast info"
  | .cxxNamedCastExpr =>
    match s.payload with
    | .cast info =>
      match info.castName with
      | some name => string name
      | none => missing s.kind "cast name"
    | _ => missing s.kind "cast info"
  | .declRefExpr =>
    match s.payload with
    | .declRef d found =>
      .object (count [d.isSome, found.isSome])
        (optional "decl_ref" d (declRef ctx) ++ optional "found_decl_ref" found (declRef ctx))
    | _ => missing s.kind "referenced declaration"
  | .overloadExpr =>
    match s.payload with
    | .overload info => overloadInfo ctx info
    | _ => missing s.kind "overload set"
  | .unresolvedLookupExpr =>
    match s.payload with
    | .overload info => lookupInfo ctx info
    | _ => missing s.kind "overload set"
  | .objCIvarRefExpr =>
    match s.payload with
    | .ivarRef d isFree => ivarRef ctx d isFree
    | _ => missing s.kind "ivar reference"
  | .predefinedExpr =>
    match s.payload with
    | .predefined ident => simple ident.name
    | _ => missing s.kind "predefined identifier"
  | .characterLiteral =>
    match s.payload with
    | .characterLiteral value => integer value
    | _ => missing s.kind "character value"
  | .integerLiteral =>
    match s.payload with
    | .integerLiteral isSigned bitwidth value => integerLiteral isSigned bitwidth value
    | _ => missing s.kind "integer value"
  | .floatingLiteral =>
    match s.payload with
    | .floatingLiteral value => string value
    | _ => missing s.kind "floating value"
  | .stringLiteral =>
    match s.payload with
    | .stringLiteral value => string value
    | _ => missing s.kind "string value"
  | .unaryOperator =>
    match s.payload with
    | .unary op => unaryInfo op
    | _ => missing s.kind "unary opcode"
  | .unaryExprOrTypeTraitExpr =>
    match s.payload with
    | .unaryTrait kind type =>
      .object (1 + type.isSome.toNat)
        ([("kind", simple kind.name)] ++ optional "qual_type" type (qualType ctx))
    | _ => missing s.kind "trait kind"
  | .memberExpr =>
    match s.payload with
    | .member isArrow d => memberInfo ctx isArrow d
    | _ => missing s.kind "member"
  | .extVectorElementExpr =>
    match s.payload with
    | .accessor name => string name
    | _ => missing s.kind "accessor"
  | .binaryOperator =>
    match s.payload with
    | .binary op _ => .object 1 [("kind", simple op.name)]
    | _ => missing s.kind "binary opcode"
  | .compoundAssignOperator =>
    match s.payload with
    | .binary _ (some types) =>
      .object 2 [("lhs_type", qualType ctx types.lhs), ("result_type", qualType ctx types.result)]
    | _ => missing s.kind "compound assignment types"
  | .blockExpr | .lambdaExpr =>
    match s.payload with
    | .ownedDecl d => .leaf (.define (.decl d))
    | _ => missing s.kind "owned declaration"
  | .opaqueValueExpr =>
    match s.payload with
    | .opaqueValue source =>
      .object source.isSome.toNat (optional "source_expr" source (fun e => identity (.stmt e)))
    | _ => missing s.kind "source expression"
  | .cxxBoolLiteralExpr | .objCBoolLiteralExpr =>
    match s.payload with
    | .boolLiteral value => integer value.toNat
    | _ => missing s.kind "boolean value"
  | .cxxConstructExpr =>
    match s.payload with
    | .construct type isElidable requiresZeroInit =>
      constructInfo ctx type isElidable requiresZeroInit
    | _ => missing s.kind "constructor info"
  | .cxxBindTemporaryExpr =>
    match s.payload with
    | .bindTemporary t => .object 1 [("cxx_temporary", identity (.temporary t))]
    | _ => missing s.kind "temporary"
  | .materializeTemporaryExpr =>
    match s.payload with
    | .materializeTemporary d =>
      .object d.isSome.toNat (optional "decl_ref" d (declRef ctx))
    | _ => missing s.kind "extending declaration"
  | .exprWithCleanups =>
    match s.payload with
    | .cleanups objects subExpr => cleanupsInfo ctx objects subExpr
    | _ => missing s.kind "cleanup objects"
  | .cxxNewExpr =>
    match s.payload with
    | .new isArray arraySize initializer => newInfo isArray arraySize initializer
    | _ => missing s.kind "new info"
  | .cxxDeleteExpr =>
    match s.payload with
    | .delete isArray => .object isArray.toNat (flag "is_array" isArray)
    | _ => missing s.kind "delete info"
  | .objCMessageExpr =>
    match s.payload with
    | .message selector method target => messageInfo ctx selector method target
    | _ => missing s.kind "message info"
  | .objCBoxedExpr | .objCSelectorExpr =>
    match s.payload with
    | .selector name => string name
    | _ => missing s.kind "selector"
  | .objCEncodeExpr =>
    match s.payload with
    | .encoded type => qualType ctx type
    | _ => missing s.kind "encoded type"
  | .objCProtocolExpr =>
    match s.payload with
    | .protocol d => declRef ctx d
    | _ => missing s.kind "protocol"
  | .objCPropertyRefExpr =>
    match s.payload with
    | .propertyRef info => propertyRefInfo ctx info
    | _ => missing s.kind "property reference"
  | _ =>
    match s.payload with
    | .subscriptRef kind getter setter => subscriptRefInfo kind getter setter
    | _ => missing s.kind "subscript reference"

/-- The fields that every statement has, besides its children. -/
def stmtInfo (node : NodeRef) (s : Stmt) : Layout :=
  .object 2 [("pointer", identity node), ("source_range", range s.range)]

/-- The fields that a level adds to the tuple of a statement. -/
def stmtLevel (ctx : Context) (node : NodeRef) (s : Stmt) : StmtKind → List Layout
  | .stmt => [stmtInfo node s, stmtChildren ctx s]
  | .expr =>
    match s.expr with
    | some e => [exprInfo ctx e]
    | none => [missing s.kind "expression info"]
  | level => if level.ownFieldCount = 0 then [] else [stmtPayload ctx s level]

/-- The statement written in place of an absent one. -/
def sentinelStmt : Stmt :=
  { kind := .nullStmt }

/-- A statement, which must have a concrete kind. -/
def stmtNode (ctx : Context) (node : NodeRef) (s : Stmt) : Layout :=
  Layout.node s.kind (stmtLevel ctx node s)

theorem length_stmtLevel (ctx : Context) (node : NodeRef) (s : Stmt) (level : StmtKind) :
    (stmtLevel ctx node s level).length = NodeKind.ownFieldCount level := by
  cases level <;> first | rfl | (simp only [stmtLevel]; split <;> rfl)

end SyntaxExport.Layout
