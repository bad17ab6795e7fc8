import SyntaxExport.Proofs.Renaming.Layout

/-!
# Payloads of renamed nodes

A payload is laid out field by field, and so it carries over: from the records that several sorts of
nodes share, a qualified type or the digest of a declaration, to the payload of each level of each
family. A type is looked up for its spelling alone, which a renaming does not change.
-/

namespace SyntaxExport

variable {ρ : Renaming} {ctx ctx' : Context}

theorem Context.MentionedIn.type? (h : ctx.MentionedIn ρ ctx') (t : TypeId) :
    ctx'.type? t = (ctx.type? t).map (TypeNode.rename ρ) := by
  rw [Context.type?, Context.type?, h.types]
  exact Array.getElem?_map

namespace Layout

variable (h : ctx.MentionedIn ρ ctx')

@[simp] theorem carries_range (r : SourceRange) : Carries ρ (range r) (range (r.rename ρ)) := by
  refine carries_tuple _ _ ?_
  simp [SourceRange.rename]

@[simp] theorem carries_declName (n : DeclName) : Carries ρ (declName n) (declName n) := by
  refine carries_object _ _ ?_
  simp

include h

theorem carries_qualType (q : QualType) : Carries ρ (qualType ctx q) (qualType ctx' q) := by
  have hspelling : ctx'.spelling q = ctx.spelling q := by
    rw [Context.spelling, Context.spelling]
    cases q.type with
    | none => rfl
    | some t =>
      simp only [h.type?]
      cases ctx.type? t <;> rfl
  have hdesugared : ctx'.desugaredSpelling q = ctx.desugaredSpelling q := by
    rw [Context.desugaredSpelling, Context.desugaredSpelling]
    cases q.type with
    | none => rfl
    | some t =>
      simp only [h.type?]
      cases ctx.type? t with
      | none => rfl
      | some node =>
        simp only [Option.map_some, TypeNode.rename]
        cases node.desugared with
        | none => rfl
        | some d =>
          simp only
          cases ctx.type? d <;> rfl
  have hmissing : missingType? ctx' q = missingType? ctx q := by
    rw [missingType?, missingType?]
    cases q.type with
    | none => rfl
    | some t =>
      simp only [h.type?, Option.isNone_map]
      cases ctx.type? t <;> rfl
  rw [qualType, qualType, hmissing, hspelling, hdesugared]
  split
  · exact carries_fault _ _
  split
  · exact carries_fault _ _
  · exact carries_fault _ _
  · refine carries_object _ _ ?_
    simp

theorem carries_declDigest (id : DeclId) (d : Decl) :
    Carries ρ (declDigest ctx id d) (declDigest ctx' (ρ.decl id) (d.rename ρ)) := by
  rw [declDigest, declDigest, Decl.kind_rename]
  refine carries_object _ _ ?_
  simp [Decl.rename, nameOf, carries_qualType h]

theorem carries_declRef (id : DeclId) :
    Carries ρ (declRef ctx id) (declRef ctx' (ρ.decl id)) := by
  rw [declRef, declRef]
  cases hd : ctx.decl? id with
  | none => exact carries_fault _ _
  | some d =>
    rw [h.decl hd]
    exact carries_declDigest h id d

theorem carries_attr (id : AttrId) : Carries ρ (attr ctx id) (attr ctx' (ρ.attr id)) := by
  rw [attr, attr]
  cases ha : ctx.attr? id with
  | none => exact carries_fault _ _
  | some a =>
    rw [h.attr ha]
    refine carries_variant _ (carries_object _ _ ?_)
    simp [Attr.rename]

theorem carries_nestedNameSpecifier (s : NestedNameSpecifier) :
    Carries ρ (nestedNameSpecifier ctx s) (nestedNameSpecifier ctx' (s.rename ρ)) := by
  refine carries_object _ _ ?_
  simp [NestedNameSpecifier.rename, carries_declRef h]

theorem carries_initializerSubject (s : InitializerSubject) :
    Carries ρ (initializerSubject ctx s) (initializerSubject ctx' (s.rename ρ)) := by
  cases s with
  | member d => exact carries_variant _ (carries_declRef h d)
  | delegating t => exact carries_variant _ (carries_qualType h t)
  | baseClass t isVirtual =>
    refine carries_variant _ (carries_tuple _ _ ?_)
    simp [carries_qualType h]

theorem carries_ctorInitializer (i : CtorInitializer) :
    Carries ρ (ctorInitializer ctx i) (ctorInitializer ctx' (i.rename ρ)) := by
  refine carries_object _ _ ?_
  simp [CtorInitializer.rename, carries_initializerSubject h]

/-! ### Payloads of declarations -/

theorem carries_functionInfo (modulePrivate : Bool) (info : FunctionInfo) :
    Carries ρ (functionInfo ctx modulePrivate info)
      (functionInfo ctx' modulePrivate (info.rename ρ)) := by
  refine carries_object _ _ ?_
  simp [FunctionInfo.rename, carries_ctorInitializer h]

omit h in
theorem carries_fieldInfo (modulePrivate : Bool) (info : FieldInfo) :
    Carries ρ (fieldInfo modulePrivate info) (fieldInfo modulePrivate (info.rename ρ)) := by
  refine carries_object _ _ ?_
  simp [FieldInfo.rename]

omit h in
theorem carries_ivarInfo (info : FieldInfo) :
    Carries ρ (ivarInfo info) (ivarInfo (info.rename ρ)) := by
  refine carries_object _ _ ?_
  simp [FieldInfo.rename]

omit h in
theorem carries_varInfo (modulePrivate : Bool) (info : VarInfo) :
    Carries ρ (varInfo modulePrivate info) (varInfo modulePrivate (info.rename ρ)) := by
  refine carries_object _ _ ?_
  simp [VarInfo.rename]

theorem carries_namespaceInfo (info : NamespaceInfo) :
    Carries ρ (namespaceInfo ctx info) (namespaceInfo ctx' (info.rename ρ)) := by
  refine carries_object _ _ ?_
  simp [NamespaceInfo.rename, carries_declRef h]

theorem carries_usingDirectiveInfo (info : UsingDirectiveInfo) :
    Carries ρ (usingDirectiveInfo ctx info) (usingDirectiveInfo ctx' (info.rename ρ)) := by
  refine carries_object _ _ ?_
  simp [UsingDirectiveInfo.rename, carries_nestedNameSpecifier h, carries_declRef h]

theorem carries_namespaceAliasInfo (info : NamespaceAliasInfo) :
    Carries ρ (namespaceAliasInfo ctx info) (namespaceAliasInfo ctx' (info.rename ρ)) := by
  refine carries_object _ _ ?_
  simp [NamespaceAliasInfo.rename, carries_nestedNameSpecifier h, carries_declRef h]

theorem carries_objCMethodInfo (info : ObjCMethodInfo) :
    Carries ρ (objCMethodInfo ctx info) (objCMethodInfo ctx' (info.rename ρ)) := by
  refine carries_object _ _ ?_
  simp [ObjCMethodInfo.rename, carries_qualType h]

theorem carries_objCCategoryInfo (info : ObjCCategoryInfo) :
    Carries ρ (objCCategoryInfo ctx info) (objCCategoryInfo ctx' (info.rename ρ)) := by
  refine carries_object _ _ ?_
  simp [ObjCCategoryInfo.rename, carries_declRef h]

theorem carries_objCCategoryImplInfo (info : ObjCCategoryImplInfo) :
    Carries ρ (objCCategoryImplInfo ctx info) (objCCategoryImplInfo ctx' (info.rename ρ)) := by
  refine carries_object _ _ ?_
  simp [ObjCCategoryImplInfo.rename, carries_declRef h]

theorem carries_objCInterfaceInfo (info : ObjCInterfaceInfo) :
    Carries ρ (objCInterfaceInfo ctx info) (objCInterfaceInfo ctx' (info.rename ρ)) := by
  refine carries_object _ _ ?_
  simp [ObjCInterfaceInfo.rename, carries_declRef h]

theorem carries_objCImplementationInfo (info : ObjCImplementationInfo) :
    Carries ρ (objCImplementationInfo ctx info) (objCImplementationInfo ctx' (info.rename ρ)) := by
  refine carries_object _ _ ?_
  simp [ObjCImplementationInfo.rename, carries_declRef h, carries_ctorInitializer h]

theorem carries_propertyAttribute (a : PropertyAttribute) :
    Carries ρ (propertyAttribute ctx a) (propertyAttribute ctx' (a.rename ρ)) := by
  cases a with
  | getter method | setter method => exact carries_variant _ (carries_declRef h method)
  | _ => exact carries_scalar _

theorem carries_objCPropertyInfo (info : ObjCPropertyInfo) :
    Carries ρ (objCPropertyInfo ctx info) (objCPropertyInfo ctx' (info.rename ρ)) := by
  refine carries_object _ _ ?_
  simp [ObjCPropertyInfo.rename, carries_declRef h, carries_qualType h, carries_propertyAttribute h]

theorem carries_objCPropertyImplInfo (info : ObjCPropertyImplInfo) :
    Carries ρ (objCPropertyImplInfo ctx info) (objCPropertyImplInfo ctx' (info.rename ρ)) := by
  refine carries_object _ _ ?_
  simp [ObjCPropertyImplInfo.rename, carries_declRef h]

theorem carries_blockCapture (c : BlockCapture) :
    Carries ρ (blockCapture ctx c) (blockCapture ctx' (c.rename ρ)) := by
  refine carries_object _ _ ?_
  simp [BlockCapture.rename, carries_declRef h]

theorem carries_blockInfo (info : BlockInfo) :
    Carries ρ (blockInfo ctx info) (blockInfo ctx' (info.rename ρ)) := by
  refine carries_object _ _ ?_
  simp [BlockInfo.rename, carries_blockCapture h]

omit h in
theorem carries_enumInfo (modulePrivate : Bool) (scope : Option EnumScope) :
    Carries ρ (enumInfo modulePrivate scope) (enumInfo modulePrivate scope) := by
  refine carries_object _ _ ?_
  simp

omit h in
theorem carries_recordInfo (modulePrivate : Bool) (info : RecordInfo) :
    Carries ρ (recordInfo modulePrivate info) (recordInfo modulePrivate info) := by
  refine carries_object _ _ ?_
  simp

omit h in
theorem carries_cxxRecordInfo (info : RecordInfo) :
    Carries ρ (cxxRecordInfo info) (cxxRecordInfo info) := by
  rw [cxxRecordInfo]
  split
  · refine carries_object _ _ ?_
    simp
  · exact carries_object _ _ fieldsCarry_nil

/-- What a level reads from a payload of another form is a fault, so nothing has to carry over. -/
theorem carries_declPayload (d : Decl) (level : DeclKind) :
    Carries ρ (declPayload ctx d level) (declPayload ctx' (d.rename ρ) level) := by
  have hpayload : (d.rename ρ).payload = d.payload.rename ρ := rfl
  have hflags : (d.rename ρ).flags = d.flags := rfl
  unfold declPayload
  rw [hpayload, hflags]
  split
  all_goals first
    | exact carries_object _ _ (fieldsCarry_flag _ _)
    | split
      · next hp =>
        rw [hp]
        simp [DeclPayload.rename, carries_object, carries_declRef h, carries_blockInfo h,
          carries_namespaceInfo h, carries_enumInfo, carries_recordInfo, carries_cxxRecordInfo,
          carries_functionInfo h, carries_fieldInfo, carries_varInfo, carries_usingDirectiveInfo h,
          carries_namespaceAliasInfo h, carries_ivarInfo, carries_objCMethodInfo h,
          carries_objCCategoryInfo h, carries_objCCategoryImplInfo h, carries_objCInterfaceInfo h,
          carries_objCImplementationInfo h, carries_objCPropertyInfo h,
          carries_objCPropertyImplInfo h]
      · exact carries_fault _ _

/-! ### Payloads of statements -/

theorem carries_exprInfo (e : ExprInfo) : Carries ρ (exprInfo ctx e) (exprInfo ctx' e) := by
  refine carries_object _ _ ?_
  simp [carries_qualType h]

omit h in
theorem carries_castInfo (c : CastInfo) : Carries ρ (castInfo c) (castInfo c) := by
  have hbase : ∀ b : CastBase, Carries ρ (castBase b) (castBase b) := by
    intro b
    refine carries_object _ _ ?_
    simp
  refine carries_object _ _ ?_
  simp [hbase]

theorem carries_overloadInfo (o : OverloadInfo) :
    Carries ρ (overloadInfo ctx o) (overloadInfo ctx' (o.rename ρ)) := by
  have hname : Carries ρ (.object 2 [("kind", simple o.nameKind.name), ("name", string o.name)])
      (.object 2 [("kind", simple o.nameKind.name), ("name", string o.name)]) := by
    refine carries_object _ _ ?_
    simp
  refine carries_object _ _ ?_
  simp [OverloadInfo.rename, carries_declRef h, hname]

theorem carries_lookupInfo (o : OverloadInfo) :
    Carries ρ (lookupInfo ctx o) (lookupInfo ctx' (o.rename ρ)) := by
  refine carries_object _ _ ?_
  simp [OverloadInfo.rename, carries_declRef h]

theorem carries_memberInfo (isArrow : Bool) (id : DeclId) :
    Carries ρ (memberInfo ctx isArrow id) (memberInfo ctx' isArrow (ρ.decl id)) := by
  rw [memberInfo, memberInfo]
  cases hd : ctx.decl? id with
  | none => exact carries_fault _ _
  | some d =>
    rw [h.decl hd]
    refine carries_object _ _ ?_
    have hname : nameOf (d.rename ρ) = nameOf d := rfl
    simp [carries_declDigest h, hname]

theorem carries_receiver (target : Receiver) :
    Carries ρ (receiver ctx target) (receiver ctx' target) := by
  cases target with
  | ofClass type => exact carries_variant _ (carries_qualType h type)
  | object | superObject | superClass => exact carries_scalar _

theorem carries_messageInfo (selector : String) (method : Option DeclId) (target : Receiver) :
    Carries ρ (messageInfo ctx selector method target)
      (messageInfo ctx' selector (method.map ρ.decl) target) := by
  refine carries_object _ _ ?_
  simp [carries_receiver h]

theorem carries_propertyRefInfo (p : PropertyRef) :
    Carries ρ (propertyRefInfo ctx p) (propertyRefInfo ctx' (p.rename ρ)) := by
  have htarget : ∀ t : PropertyTarget,
      Carries ρ (propertyTarget ctx t) (propertyTarget ctx' (t.rename ρ)) := by
    intro t
    cases t with
    | methods getter setter =>
      refine carries_variant _ (carries_object _ _ ?_)
      simp [accessorNames]
    | property d => exact carries_variant _ (carries_declRef h d)
  refine carries_object _ _ ?_
  simp [PropertyRef.rename, htarget]

omit h in
theorem carries_labelRef (name : String) (target : DeclId) :
    Carries ρ (labelRef name target) (labelRef name (ρ.decl target)) := by
  refine carries_object _ _ ?_
  simp

theorem carries_ivarRef (d : DeclId) (isFree : Bool) :
    Carries ρ (ivarRef ctx d isFree) (ivarRef ctx' (ρ.decl d) isFree) := by
  refine carries_object _ _ ?_
  simp [carries_declRef h]

omit h in
theorem carries_integerLiteral (isSigned : Bool) (bitwidth : Nat) (value : String) :
    Carries ρ (integerLiteral isSigned bitwidth value) (integerLiteral isSigned bitwidth value) := by
  refine carries_object _ _ ?_
  simp

omit h in
theorem carries_unaryInfo (op : UnaryOpcode) : Carries ρ (unaryInfo op) (unaryInfo op) := by
  refine carries_object _ _ ?_
  simp

theorem carries_constructInfo (type : QualType) (isElidable requiresZeroInit : Bool) :
    Carries ρ (constructInfo ctx type isElidable requiresZeroInit)
      (constructInfo ctx' type isElidable requiresZeroInit) := by
  refine carries_object _ _ ?_
  simp [carries_qualType h]

theorem carries_cleanupsInfo (objects : List DeclId) (subExpr : StmtId) :
    Carries ρ (cleanupsInfo ctx objects subExpr)
      (cleanupsInfo ctx' (objects.map ρ.decl) (ρ.stmt subExpr)) := by
  refine carries_object _ _ ?_
  simp [carries_declRef h]

omit h in
theorem carries_newInfo (isArray : Bool) (arraySize initializer : Option StmtId) :
    Carries ρ (newInfo isArray arraySize initializer)
      (newInfo isArray (arraySize.map ρ.stmt) (initializer.map ρ.stmt)) := by
  refine carries_object _ _ ?_
  simp

omit h in
theorem carries_subscriptRefInfo (kind : SubscriptKind) (getter setter : Option String) :
    Carries ρ (subscriptRefInfo kind getter setter) (subscriptRefInfo kind getter setter) := by
  refine carries_object _ _ ?_
  simp [accessorNames]

theorem carries_stmtPayload (s : Stmt) (level : StmtKind) :
    Carries ρ (stmtPayload ctx s level) (stmtPayload ctx' (s.rename ρ) level) := by
  have hpayload : (s.rename ρ).payload = s.payload.rename ρ := rfl
  unfold stmtPayload
  rw [hpayload]
  split
  all_goals
    split
    all_goals first
    | exact carries_fault _ _
    | next hp =>
      rw [hp]
      simp only [StmtPayload.rename]
      first
      -- a list, a scalar or a record of its own
      | simp [carries_attr h, carries_declRef h, carries_qualType h, carries_castInfo,
          carries_labelRef, carries_overloadInfo h, carries_lookupInfo h, carries_ivarRef h,
          carries_integerLiteral, carries_unaryInfo, carries_memberInfo h, carries_constructInfo h,
          carries_cleanupsInfo h, carries_newInfo, carries_messageInfo h, carries_propertyRefInfo h,
          carries_subscriptRefInfo]
        done
      -- a record that no other level has
      | refine carries_object _ _ ?_
        simp [carries_declRef h, carries_qualType h]
      -- the variable of a catch
      | exact carries_variant _ (carries_define.mpr rfl)
      -- what only some casts have
      | split
        · simp [carries_qualType h]
        · exact carries_fault _ _

/-! ### Payloads of comments and types -/

omit h in
theorem carries_commentPayload (c : Comment) (level : CommentKind) :
    Carries ρ (commentPayload c level) (commentPayload (c.rename ρ) level) := by
  have hsame : commentPayload (c.rename ρ) level = commentPayload c level := rfl
  have hattribute : ∀ a : String × String, Carries ρ (htmlAttribute a) (htmlAttribute a) := by
    intro a
    refine carries_object _ _ ?_
    simp
  rw [hsame]
  unfold commentPayload
  split
  all_goals
    split
    all_goals first
    | exact carries_fault _ _
    | exact carries_scalar _
    | refine carries_object _ _ ?_
      simp [hattribute]

omit h in
theorem carries_typePayload (t : TypeNode) (level : TypeKind) :
    Carries ρ (typePayload t level) (typePayload (t.rename ρ) level) := by
  have hpayload : (t.rename ρ).payload = t.payload.rename ρ := rfl
  have hchild : (t.payload.rename ρ).child? = t.payload.child? := by
    cases t.payload <;> rfl
  unfold typePayload
  rw [hpayload, hchild]
  split
  all_goals
    split
    all_goals first
    | exact carries_fault _ _
    | exact carries_identity.mpr (NodeRef.rename_ofType ρ _).symm
    | next hp =>
      rw [hp]
      first
      | simp [TypePayload.rename]
        done
      | refine carries_object _ _ ?_
        simp

end Layout

end SyntaxExport
