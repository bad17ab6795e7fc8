import SyntaxExport.Proofs.Exportable.Basic

/-!
# Layouts of complete nodes

The faults in the layout of a node are those of a node that is not complete, and there is one exactly if
the node is not complete.

A leaf is allowed where no fault is, or else one fault of a node (`Item.Allowed`), and what a part of a
layout needs is the same in both cases: nothing where faults are allowed, and otherwise that what the
part looks up is in the context. So every part has one lemma, of the form `faulty ∨ condition`.
-/

namespace SyntaxExport

namespace Layout

variable {ctx : Context} {opts : Options} {faulty : Prop}

/-! ### Leaves -/

@[simp] theorem allowed_scalar (x : Scalar) : (Item.scalar x).Allowed ctx faulty := trivial

@[simp] theorem allowed_identity (n : NodeRef) : (Item.identity n).Allowed ctx faulty := trivial

@[simp] theorem allowed_define (s : Site) : (Item.define s).Allowed ctx faulty := trivial

@[simp] theorem allowed_location (loc : Option SourceLocation) :
    (Item.location loc).Allowed ctx faulty ↔ ∀ l ∈ loc, (ctx.fileName? l.file).isSome := Iff.rfl

@[simp] theorem allowed_dangling (n : NodeRef) :
    (Item.fault (.danglingNode n)).Allowed ctx faulty ↔ faulty := and_iff_left trivial

@[simp] theorem allowed_missing (tag expected : String) :
    (Item.fault (.missingPayload tag expected)).Allowed ctx faulty ↔ faulty := and_iff_left trivial

@[simp] theorem allowed_abstract (f : Family) (tag : String) :
    (Item.fault (.abstractKind f tag)).Allowed ctx faulty ↔ faulty := and_iff_left trivial

@[simp] theorem allowed_range (r : SourceRange) :
    (range r).Allowed ctx faulty ↔ ctx.KnowsRange r := by
  simp [range, Context.KnowsRange]

/-! ### Lookups -/

/-- Types are looked up before they are spelled, so no spelling has a fault of its own. -/
@[simp] theorem allowed_qualType (q : QualType) :
    (qualType ctx q).Allowed ctx faulty ↔ faulty ∨ ctx.Spells q := by
  rw [qualType, missingType?, Context.desugaredSpelling, Context.spelling, Context.Spells]
  cases q.type with
  | none => simp
  | some t =>
    cases hnode : ctx.type? t with
    | none => simp [hnode]
    | some node =>
      cases hdesugared : node.desugared with
      | none => simp [hnode, hdesugared]
      | some d => cases htarget : ctx.type? d <;> simp [hnode, hdesugared, htarget, Option.filter]

@[simp] theorem allowed_declName (n : DeclName) : (declName n).Allowed ctx faulty := by
  simp [declName]

theorem allowed_declDigest (id : DeclId) (d : Decl) :
    (declDigest ctx id d).Allowed ctx faulty
      ↔ faulty ∨ (d.kind.isValue → ∀ q ∈ d.valueType, ctx.Spells q) := by
  have hswap : (∀ q, d.valueType = some q → d.kind.isValue → ctx.Spells q)
      ↔ (d.kind.isValue → ∀ q, d.valueType = some q → ctx.Spells q) :=
    ⟨fun h hk q hq => h q hq hk, fun h q hq hk => h hk q hq⟩
  by_cases hfaulty : faulty <;> simp [declDigest, hfaulty, hswap]

@[simp] theorem allowed_declRef (id : DeclId) :
    (declRef ctx id).Allowed ctx faulty ↔ faulty ∨ ctx.Digests id := by
  rw [declRef, Context.Digests]
  cases ctx.decl? id with
  | none => simp
  | some d => simp [allowed_declDigest]

theorem allowed_attr (hattrs : ∀ a ∈ ctx.attrs, ctx.KnowsRange a.range) (id : AttrId) :
    (attr ctx id).Allowed ctx faulty ↔ faulty ∨ (ctx.attr? id).isSome := by
  rw [attr]
  cases ha : ctx.attr? id with
  | none => simp
  | some a => simp [attrNode, hattrs a (Array.mem_of_getElem? ha)]

@[simp] theorem allowed_memberInfo (isArrow : Bool) (id : DeclId) :
    (memberInfo ctx isArrow id).Allowed ctx faulty ↔ faulty ∨ ctx.Digests id := by
  rw [memberInfo, Context.Digests]
  cases ctx.decl? id with
  | none => simp
  | some d => simp [allowed_declDigest]

@[simp] theorem allowed_initializerSubject (s : InitializerSubject) :
    (initializerSubject ctx s).Allowed ctx faulty
      ↔ faulty ∨ ctx.Resolves s.mention := by
  cases s <;> simp [initializerSubject, InitializerSubject.mention]

@[simp] theorem allowed_ctorInitializer (i : CtorInitializer) :
    (ctorInitializer ctx i).Allowed ctx faulty
      ↔ faulty ∨ ctx.Resolves i.subject.mention := by
  simp [ctorInitializer]

@[simp] theorem allowed_nestedNameSpecifier (s : NestedNameSpecifier) :
    (nestedNameSpecifier ctx s).Allowed ctx faulty
      ↔ faulty ∨ ctx.ResolvesAll s.mentions := by
  by_cases hfaulty : faulty <;> simp [nestedNameSpecifier, NestedNameSpecifier.mentions, hfaulty]

/-! ### Statements -/

@[simp] theorem allowed_messageInfo (selector : String) (method : Option DeclId) (r : Receiver) :
    (messageInfo ctx selector method r).Allowed ctx faulty
      ↔ faulty ∨ ctx.ResolvesAll r.mentions := by
  cases r <;> simp [messageInfo, receiver, Receiver.mentions]

@[simp] theorem allowed_propertyRefInfo (p : PropertyRef) :
    (propertyRefInfo ctx p).Allowed ctx faulty
      ↔ faulty ∨ ctx.ResolvesAll p.target.mentions := by
  rw [propertyRefInfo]
  cases p.target <;> simp [propertyTarget, accessorNames, PropertyTarget.mentions]

/-! The levels that look into a part of the payload. -/

theorem allowed_catchParam (s : Stmt) : (stmtPayload ctx s .objCAtCatchStmt).Allowed ctx faulty
    ↔ faulty ∨ s.payload matches .catchParam _ := by
  rw [stmtPayload]
  cases s.payload
  case catchParam d => cases d <;> simp
  all_goals simp

theorem allowed_writtenType (s : Stmt) : (stmtPayload ctx s .explicitCastExpr).Allowed ctx faulty
    ↔ faulty ∨ s.payload.cast?.any (·.writtenType.isSome)
      ∧ ctx.ResolvesAll (s.payload.mentions .explicitCastExpr) := by
  rw [stmtPayload]
  cases s.payload
  case cast info => cases h : info.writtenType <;> simp [StmtPayload.cast?, StmtPayload.mentions, h]
  all_goals simp [StmtPayload.cast?]

theorem allowed_castName (s : Stmt) : (stmtPayload ctx s .cxxNamedCastExpr).Allowed ctx faulty
    ↔ faulty ∨ s.payload.cast?.any (·.castName.isSome) := by
  rw [stmtPayload]
  cases s.payload
  case cast info => cases h : info.castName <;> simp [StmtPayload.cast?, h]
  all_goals simp [StmtPayload.cast?]

/-- A level that reads a payload needs one that it accepts, and what the payload mentions. -/
theorem allowed_stmtPayload (hattrs : ∀ a ∈ ctx.attrs, ctx.KnowsRange a.range) (s : Stmt)
    {level : StmtKind} {accepts : StmtPayload → Bool} (hlevel : level.accepts? = some accepts) :
    (stmtPayload ctx s level).Allowed ctx faulty
      ↔ faulty ∨ accepts s.payload ∧ ctx.ResolvesAll (s.payload.mentions level) := by
  cases level <;> cases hlevel
  case objCAtCatchStmt =>
    rw [allowed_catchParam]
    cases s.payload <;> simp [StmtPayload.mentions]
  case explicitCastExpr => exact allowed_writtenType s
  case cxxNamedCastExpr =>
    rw [allowed_castName]
    cases s.payload <;> simp [StmtPayload.mentions, StmtPayload.cast?]
  all_goals simp only [stmtPayload]
  all_goals split
  all_goals by_cases hfaulty : faulty
  all_goals simp [*, allowed_attr hattrs, StmtPayload.mentions, labelRef, castInfo, castBase,
    overloadInfo, lookupInfo, ivarRef, integerLiteral, unaryInfo, constructInfo, cleanupsInfo, newInfo,
    subscriptRefInfo, accessorNames]

/-! ### Declarations -/

@[simp] theorem allowed_cxxRecordInfo (info : RecordInfo) :
    (cxxRecordInfo info).Allowed ctx faulty := by
  rw [cxxRecordInfo]
  split <;> simp

@[simp] theorem allowed_propertyAttribute (a : PropertyAttribute) :
    (propertyAttribute ctx a).Allowed ctx faulty
      ↔ faulty ∨ ctx.ResolvesAll a.mentions := by
  cases a <;> simp [propertyAttribute, PropertyAttribute.mentions]

@[simp] theorem allowed_blockCapture (c : BlockCapture) :
    (blockCapture ctx c).Allowed ctx faulty
      ↔ faulty ∨ ctx.ResolvesAll c.mentions := by
  by_cases hfaulty : faulty <;> simp [blockCapture, BlockCapture.mentions, hfaulty]

/-- A level that reads a payload needs one that it accepts, and what the payload mentions. -/
theorem allowed_declPayload {d : Decl}
    (hlocations : ∀ l ∈ d.payload.locations, (ctx.fileName? l.file).isSome) {level : DeclKind}
    {accepts : DeclPayload → Bool} (hlevel : level.accepts? = some accepts) :
    (declPayload ctx d level).Allowed ctx faulty
      ↔ faulty ∨ accepts d.payload ∧ ctx.ResolvesAll d.payload.mentions := by
  cases level <;> cases hlevel
  all_goals simp only [declPayload]
  all_goals split
  all_goals by_cases hfaulty : faulty
  all_goals simp_all [DeclPayload.mentions, DeclPayload.locations, enumInfo, recordInfo, functionInfo,
    fieldInfo, ivarInfo, varInfo, namespaceInfo, usingDirectiveInfo, namespaceAliasInfo,
    objCMethodInfo, objCCategoryInfo, objCCategoryImplInfo, objCInterfaceInfo, objCImplementationInfo,
    objCPropertyInfo, objCPropertyImplInfo, blockInfo, or_imp, forall_and]

theorem allowed_declContext (hknown : ctx.KnowsLocations) (hfilter : ∀ f ∈ opts.filter, f.Decides)
    (d : Decl) : (∀ field ∈ declContext ctx opts d, field.Allowed ctx faulty)
      ↔ faulty ∨ ∀ c ∈ (d.context.getD {}).decls, (ctx.decl? c).isSome := by
  have hranges : ∀ d ∈ ctx.decls, ctx.KnowsRange d.range := fun d hd => (hknown.decls d hd).1
  rcases keptChildren_cases hranges hfilter (d.context.getD {}).decls with
    ⟨kept, hkept, hchildren⟩ | ⟨id, hid, hnone, hkept⟩
  · refine iff_of_true ?_ (.inr hchildren)
    simp [declContext, hkept]
  · have hmissing : ¬ ∀ c ∈ (d.context.getD {}).decls, (ctx.decl? c).isSome := by
      intro hall
      have hsome := hall id hid
      rw [hnone] at hsome
      cases hsome
    rw [or_iff_left hmissing]
    simp [declContext, hkept]

theorem allowed_declaredType (d : Decl) :
    (∀ field ∈ declaredType ctx d, field.Allowed ctx faulty)
      ↔ faulty ∨ ∀ t ∈ d.typeForDecl, (ctx.type? t).isSome := by
  rw [declaredType]
  cases d.typeForDecl with
  | none => simp
  | some t => cases h : ctx.type? t <;> simp [h]

@[simp] theorem allowed_redeclaration (r : Redeclaration) :
    (redeclaration r).Allowed ctx faulty := by
  cases r <;> simp [redeclaration]

theorem allowed_declInfo (hattrs : ∀ a ∈ ctx.attrs, ctx.KnowsRange a.range) {d : Decl}
    (hrange : ctx.KnowsRange d.range) (node : NodeRef) :
    (declInfo ctx node d).Allowed ctx faulty ↔ faulty ∨ ∀ a ∈ d.attrs, (ctx.attr? a).isSome := by
  by_cases hfaulty : faulty <;> simp [declInfo, hfaulty, hrange, allowed_attr hattrs]

end Layout

end SyntaxExport
