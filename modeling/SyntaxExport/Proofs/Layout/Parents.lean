import SyntaxExport.Proofs.Layout.Tokens
import SyntaxExport.Proofs.Pass.Nesting

/-!
# Parents in documents

A declaration is written with its parent only where it does not stand in it: where the parent that it
belongs to is not the one that it is written in. No other part of a layout has a field of that name. So a
context in which both parents of every declaration are the same has no such field in its documents
(`Site.parentless_tree`).
-/

namespace SyntaxExport

namespace Layout

/-- No field of the layout has a name, at any depth. -/
def Without (name : String) (l : Layout) : Prop :=
  .tag name ∉ l.tree.tokens

/-- No field has a name, and no field inside of one. -/
def FieldsWithout (name : String) (fs : Fields) : Prop :=
  ∀ f ∈ fs, f.1 ≠ name ∧ f.2.Without name

/-! ### Containers -/

section Containers

variable {α : Type} (name other : String) (n : Nat) (a : Item) (l : Layout) (ls : List Layout)
  (fs gs : Fields) (b : Bool) (o : Option α) (as : List α) (f : α → Layout)

@[simp] theorem without_leaf : (Layout.leaf a).Without name := by
  show .tag name ∉ [Token.leaf a]
  simp

/-- The fields of a container are those of its parts. -/
theorem tag_mem_parts {f : α → List (Token Item)} (shape : Shape) : .tag name ∈
    .container shape n :: (as.flatMap f ++ [.close]) ↔ ∃ x ∈ as, .tag name ∈ f x := by
  simp

@[simp] theorem without_object : (object n fs).Without name ↔ FieldsWithout name fs := by
  have hfield : ∀ f : String × Layout,
      .tag name ∈ ofField f ↔ ¬ (f.1 ≠ name ∧ f.2.Without name) := by
    intro f
    simp only [ofField, List.mem_cons, Token.tag.injEq, Without]
    tauto
  rw [Without, tokens_object, tag_mem_parts]
  simp only [hfield]
  simp [FieldsWithout]

@[simp] theorem without_array : (array n ls).Without name ↔ ∀ l ∈ ls, l.Without name := by
  rw [Without, tokens_array, tag_mem_parts]
  simp [Without]

@[simp] theorem without_tuple : (tuple n ls).Without name ↔ ∀ l ∈ ls, l.Without name := by
  rw [Without, tokens_tuple, tag_mem_parts]
  simp [Without]

@[simp] theorem without_variant : (variant other l).Without name ↔ l.Without name := by
  simp [Without, tokens_variant]

@[simp] theorem fieldsWithout_nil : FieldsWithout name [] :=
  nofun

@[simp] theorem fieldsWithout_cons : FieldsWithout name ((other, l) :: fs)
    ↔ (other ≠ name ∧ l.Without name) ∧ FieldsWithout name fs :=
  List.forall_mem_cons

@[simp] theorem fieldsWithout_append :
    FieldsWithout name (fs ++ gs) ↔ FieldsWithout name fs ∧ FieldsWithout name gs :=
  List.forall_mem_append

@[simp] theorem without_list : (list f as).Without name ↔ ∀ a ∈ as, (f a).Without name := by
  simp [list]

@[simp] theorem fieldsWithout_flag :
    FieldsWithout name (flag other b) ↔ (b = true → other ≠ name) := by
  cases b <;> simp [flag]

@[simp] theorem fieldsWithout_optional : FieldsWithout name (optional other o f)
    ↔ ∀ x ∈ o, other ≠ name ∧ (f x).Without name := by
  cases o <;> simp [optional]

@[simp] theorem fieldsWithout_nonempty : FieldsWithout name (nonempty other as f)
    ↔ (as ≠ [] → other ≠ name) ∧ ∀ x ∈ as, (f x).Without name := by
  cases as <;> simp [nonempty]

@[simp] theorem fieldsWithout_ite (q : Prop) [Decidable q] :
    FieldsWithout name (if q then fs else gs)
      ↔ (q → FieldsWithout name fs) ∧ (¬ q → FieldsWithout name gs) := by
  split <;> simp_all

end Containers

/-! ### Parts that nodes of several families share -/

/-- No declaration is written with its parent. -/
abbrev Parentless (l : Layout) : Prop :=
  l.Without "parent_pointer"

@[simp] theorem parentless_range (r : SourceRange) : (range r).Parentless := by
  simp [range]

@[simp] theorem parentless_qualType (ctx : Context) (q : QualType) : (qualType ctx q).Parentless := by
  unfold qualType
  split
  · simp
  · split <;> simp

@[simp] theorem parentless_declName (n : DeclName) : (declName n).Parentless := by
  simp [declName]

@[simp] theorem parentless_declDigest (ctx : Context) (id : DeclId) (d : Decl) :
    (declDigest ctx id d).Parentless := by
  simp [declDigest]

@[simp] theorem parentless_declRef (ctx : Context) (id : DeclId) : (declRef ctx id).Parentless := by
  unfold declRef
  split <;> simp

@[simp] theorem parentless_attr (ctx : Context) (id : AttrId) : (attr ctx id).Parentless := by
  unfold attr
  split
  · simp
  · simp [attrNode]

@[simp] theorem parentless_nestedNameSpecifier (ctx : Context) (s : NestedNameSpecifier) :
    (nestedNameSpecifier ctx s).Parentless := by
  simp [nestedNameSpecifier]

@[simp] theorem parentless_ctorInitializer (ctx : Context) (i : CtorInitializer) :
    (ctorInitializer ctx i).Parentless := by
  have hsubject : (initializerSubject ctx i.subject).Parentless := by
    cases i.subject <;> simp [initializerSubject]
  simp [ctorInitializer, hsubject]

theorem without_node {κ : Type} [NodeKind κ] (name : String) (k : κ) {level : κ → List Layout}
    (hlevel : ∀ l, ∀ field ∈ level l, field.Without name) : (node k level).Without name := by
  unfold node
  split
  · simp
  · rw [without_variant, without_tuple]
    intro field hfield
    obtain ⟨l, -, hl⟩ := List.mem_flatMap.mp hfield
    exact hlevel l field hl

/-! ### Types -/

theorem parentless_typePayload (t : TypeNode) (level : TypeKind) : (typePayload t level).Parentless := by
  unfold typePayload
  split <;> split <;> simp [functionParams, objCObjectInfo]

theorem parentless_typeLevel (id : TypeId) (t : TypeNode) (level : TypeKind) :
    ∀ field ∈ typeLevel id t level, field.Parentless := by
  intro field hfield
  have hinfo : (typeInfo id t).Parentless := by
    simp [typeInfo]
  unfold typeLevel at hfield
  split at hfield
  · rw [List.mem_singleton.mp hfield]
    exact hinfo
  · split at hfield
    · exact absurd hfield List.not_mem_nil
    · rw [List.mem_singleton.mp hfield]
      exact parentless_typePayload t level

@[simp] theorem parentless_typeList (ctx : Context) : (typeList ctx).Parentless := by
  rw [typeList]
  refine (without_array ..).mpr fun l hl => ?_
  rcases List.mem_append.mp hl with hl | hl
  · obtain ⟨i, hi, rfl⟩ := List.mem_mapIdx.mp hl
    exact without_node _ _ (parentless_typeLevel _ _)
  · rw [List.mem_singleton.mp hl]
    simp [noType]

/-! ### Comments -/

theorem parentless_commentPayload (c : Comment) (level : CommentKind) :
    (commentPayload c level).Parentless := by
  unfold commentPayload
  split <;> split <;>
    simp [inlineCommand, htmlStartTag, htmlAttribute, blockCommand, paramCommand, tParamCommand]

theorem parentless_commentLevel (ctx : Context) (node : NodeRef) (c : Comment) (level : CommentKind) :
    ∀ field ∈ commentLevel ctx node c level, field.Parentless := by
  intro field hfield
  have hchildren : (commentChildren ctx c).Parentless := by
    unfold commentChildren
    split <;> simp
  unfold commentLevel at hfield
  split at hfield
  · rcases List.mem_cons.mp hfield with rfl | hfield
    · simp [commentInfo]
    · rw [List.mem_singleton.mp hfield]
      exact hchildren
  · split at hfield
    · exact absurd hfield List.not_mem_nil
    · rw [List.mem_singleton.mp hfield]
      exact parentless_commentPayload c level

/-! ### Statements -/

@[simp] theorem parentless_castInfo (c : CastInfo) : (castInfo c).Parentless := by
  simp [castInfo, castBase]

@[simp] theorem parentless_overloadInfo (ctx : Context) (o : OverloadInfo) :
    (overloadInfo ctx o).Parentless := by
  simp [overloadInfo]

@[simp] theorem parentless_memberInfo (ctx : Context) (isArrow : Bool) (id : DeclId) :
    (memberInfo ctx isArrow id).Parentless := by
  unfold memberInfo
  split <;> simp

@[simp] theorem parentless_messageInfo (ctx : Context) (selector : String) (method : Option DeclId)
    (target : Receiver) : (messageInfo ctx selector method target).Parentless := by
  have hreceiver : (receiver ctx target).Parentless := by
    cases target <;> simp [receiver]
  simp [messageInfo, hreceiver]

@[simp] theorem parentless_propertyRefInfo (ctx : Context) (p : PropertyRef) :
    (propertyRefInfo ctx p).Parentless := by
  have htarget : (propertyTarget ctx p.target).Parentless := by
    cases p.target <;> simp [propertyTarget, accessorNames]
  simp [propertyRefInfo, htarget]

theorem parentless_stmtPayload (ctx : Context) (s : Stmt) (level : StmtKind) :
    (stmtPayload ctx s level).Parentless := by
  unfold stmtPayload
  -- one case for each level and payload; the third split is for the parts of a cast
  split <;> split <;> (try split) <;>
    simp [labelRef, lookupInfo, ivarRef, integerLiteral, unaryInfo, constructInfo, cleanupsInfo,
      newInfo, subscriptRefInfo, accessorNames]

theorem parentless_stmtLevel (ctx : Context) (node : NodeRef) (s : Stmt) (level : StmtKind) :
    ∀ field ∈ stmtLevel ctx node s level, field.Parentless := by
  intro field hfield
  have hchildren : (stmtChildren ctx s).Parentless := by
    unfold stmtChildren
    split <;> simp
  unfold stmtLevel at hfield
  split at hfield
  · rcases List.mem_cons.mp hfield with rfl | hfield
    · simp [stmtInfo]
    · rw [List.mem_singleton.mp hfield]
      exact hchildren
  · split at hfield
    · rw [List.mem_singleton.mp hfield]
      simp [exprInfo]
    · rw [List.mem_singleton.mp hfield]
      simp
  · split at hfield
    · exact absurd hfield List.not_mem_nil
    · rw [List.mem_singleton.mp hfield]
      exact parentless_stmtPayload ctx s level

/-! ### Declarations -/

/-- A declaration with one parent is written without it. -/
theorem parentless_declInfo (ctx : Context) (node : NodeRef) {d : Decl}
    (hd : d.lexicalParent = d.semanticParent) : (declInfo ctx node d).Parentless := by
  have hlink : ∀ r, (redeclaration r).Parentless := by
    intro r
    cases r <;> simp [redeclaration]
  simp [declInfo, hlink, hd]

theorem parentless_declContext (ctx : Context) (opts : Options) (d : Decl) :
    ∀ field ∈ declContext ctx opts d, field.Parentless := by
  intro field hfield
  rcases List.mem_cons.mp hfield with rfl | hfield
  · split <;> simp
  · rw [List.mem_singleton.mp hfield]
    simp

theorem parentless_declaredType (ctx : Context) (d : Decl) :
    ∀ field ∈ declaredType ctx d, field.Parentless := by
  intro field hfield
  rcases List.mem_cons.mp hfield with rfl | hfield
  · split
    · simp
    · split <;> simp
  · rw [List.mem_singleton.mp hfield]
    simp

@[simp] theorem parentless_cxxRecordInfo (info : RecordInfo) : (cxxRecordInfo info).Parentless := by
  unfold cxxRecordInfo
  split <;> simp

@[simp] theorem parentless_functionInfo (ctx : Context) (modulePrivate : Bool) (info : FunctionInfo) :
    (functionInfo ctx modulePrivate info).Parentless := by
  simp [functionInfo]

@[simp] theorem parentless_ivarInfo (info : FieldInfo) : (ivarInfo info).Parentless := by
  simp [ivarInfo]

@[simp] theorem parentless_varInfo (modulePrivate : Bool) (info : VarInfo) :
    (varInfo modulePrivate info).Parentless := by
  simp [varInfo]

@[simp] theorem parentless_objCPropertyInfo (ctx : Context) (info : ObjCPropertyInfo) :
    (objCPropertyInfo ctx info).Parentless := by
  have hattribute : ∀ a, (propertyAttribute ctx a).Parentless := by
    intro a
    cases a <;> simp [propertyAttribute]
  simp [objCPropertyInfo, hattribute]

@[simp] theorem parentless_blockInfo (ctx : Context) (info : BlockInfo) :
    (blockInfo ctx info).Parentless := by
  have hcapture : ∀ c, (blockCapture ctx c).Parentless := by
    intro c
    simp [blockCapture]
  simp [blockInfo, hcapture]

theorem parentless_declPayload (ctx : Context) (d : Decl) (level : DeclKind) :
    (declPayload ctx d level).Parentless := by
  unfold declPayload
  split <;> (try split) <;>
    simp [enumInfo, recordInfo, fieldInfo, namespaceInfo, usingDirectiveInfo, namespaceAliasInfo,
      objCMethodInfo, objCCategoryInfo, objCCategoryImplInfo, objCInterfaceInfo,
      objCImplementationInfo, objCPropertyImplInfo]

theorem parentless_declLevel (ctx : Context) (opts : Options) (node : NodeRef) {d : Decl}
    (hd : d.lexicalParent = d.semanticParent) (level : DeclKind) :
    ∀ field ∈ declLevel ctx opts node d level, field.Parentless := by
  have hcontext := parentless_declContext ctx opts d
  have hpayload := parentless_declPayload ctx d
  unfold declLevel
  split
  · simpa using parentless_declInfo ctx node hd
  · simp
  · exact parentless_declaredType ctx d
  · simp
  iterate 4 exact hcontext
  · simpa [or_imp, forall_and] using hcontext
  iterate 2 simpa [or_imp, forall_and, hpayload] using hcontext
  · split
    · simp
    · simpa using hpayload level

end Layout

/-! ### Documents -/

namespace Site

variable {ctx : Context} (opts : Options)
  (hparents : ∀ id d, ctx.decl? id = some d → d.lexicalParent = d.semanticParent)
include hparents

theorem parentless_layout (s : Site) : (s.layout ctx opts).Parentless := by
  unfold Site.layout
  split
  · exact Layout.without_node _ _ (Layout.parentless_declLevel ctx opts _ rfl)
  · split
    · simp
    · next id d hd =>
      exact Layout.without_node _ _ (Layout.parentless_declLevel ctx opts _ (hparents _ d hd))
  · exact Layout.without_node _ _ (Layout.parentless_stmtLevel ctx _ _)
  · split
    · simp
    · exact Layout.without_node _ _ (Layout.parentless_stmtLevel ctx _ _)
  · exact Layout.without_node _ _ (Layout.parentless_commentLevel ctx _ _)
  · split
    · simp
    · exact Layout.without_node _ _ (Layout.parentless_commentLevel ctx _ _)

/-- No declaration of a document is written with its parent, at any depth. -/
theorem parentless_tree : ∀ (fuel : Nat) (s : Site),
    .tag "parent_pointer" ∉ (s.tree ctx opts fuel).tokens
  | 0, _ => fun h => by cases List.mem_singleton.mp h
  | fuel + 1, s => by
    rw [tokens_tree_succ]
    intro h
    obtain ⟨t, ht, htag⟩ := List.mem_flatMap.mp h
    cases t with
    | tag name =>
      cases List.mem_singleton.mp htag
      exact parentless_layout opts hparents s ht
    | leaf a =>
      cases a with
      | define u => exact parentless_tree fuel u htag
      | scalar | identity | location | fault => cases List.mem_singleton.mp htag
    | container | variant | close => cases List.mem_singleton.mp htag

end Site

end SyntaxExport
