import SyntaxExport.Proofs.Document.Objects
import SyntaxExport.Proofs.Pass.Expansion

/-!
# The names of fields

The fields of an object are put together from parts that are there or not. Their names are known
whatever is there, so it is enough that each name is missing in what follows it (`Layout.Lacks`).
The main statement, `Site.proper_layout`, says that the objects of whatever a site defines are proper,
in any context.
-/

namespace SyntaxExport

/-- The boolean of a leaf. -/
def Item.boolean? : Item → Option Bool
  | .scalar x => x.boolean?
  | _ => none

namespace Layout

/-- The boolean that a layout is. -/
def boolean? (l : Layout) : Option Bool :=
  l.tree.leaf?.bind Item.boolean?

/-- Every object of a layout is proper. -/
def Proper (l : Layout) : Prop :=
  l.tree.Proper Item.boolean?

/-- No field has a name. -/
def Lacks (name : String) (fs : Fields) : Prop :=
  name ∉ fs.map (·.1)

/-- The fields have different names. -/
def Distinct (fs : Fields) : Prop :=
  (fs.map (·.1)).Nodup

/-- A field that is a flag is true, no other is a boolean, and the objects inside are proper. -/
def FieldProper (name : String) (l : Layout) : Prop :=
  l.boolean? = flagValue? name ∧ l.Proper

/-- Every field is proper. -/
def FieldsProper (fs : Fields) : Prop :=
  ∀ field ∈ fs, FieldProper field.1 field.2

/-! ### Containers -/

@[simp] theorem boolean?_leaf (a : Item) : (Layout.leaf a).boolean? = a.boolean? := rfl

@[simp] theorem boolean?_object (size : Nat) (fs : Fields) :
    (Layout.object size fs).boolean? = none := rfl

@[simp] theorem boolean?_variant (tag : String) (l : Layout) :
    (Layout.variant tag l).boolean? = none := rfl

@[simp] theorem boolean?_list {α : Type} (f : α → Layout) (as : List α) :
    (list f as).boolean? = none := rfl

@[simp] theorem boolean?_range (r : SourceRange) : (range r).boolean? = none := rfl

theorem fieldTrees_eq_map : ∀ fs : Fields,
    fieldTrees fs = fs.map fun field => (field.1, field.2.tree)
  | [] => rfl
  | (name, l) :: fs => congrArg ((name, l.tree) :: ·) (fieldTrees_eq_map fs)

theorem itemTrees_eq_map : ∀ ls : List Layout, itemTrees ls = ls.map tree
  | [] => rfl
  | l :: ls => congrArg (l.tree :: ·) (itemTrees_eq_map ls)

@[simp] theorem proper_leaf (a : Item) : (Layout.leaf a).Proper :=
  Tree.proper_leaf a

@[simp] theorem proper_object (size : Nat) (fs : Fields) :
    (Layout.object size fs).Proper ↔ Distinct fs ∧ FieldsProper fs := by
  have hnames : (fieldTrees fs).map (·.1) = fs.map (·.1) := by
    rw [fieldTrees_eq_map, List.map_map]
    rfl
  constructor
  · intro h
    obtain ⟨⟨hnodup, hflags⟩, hinside⟩ := Tree.proper_object.mp h
    rw [hnames] at hnodup
    refine ⟨hnodup, fun field hfield => ?_⟩
    have htree : (field.1, field.2.tree) ∈ fieldTrees fs := by
      rw [fieldTrees_eq_map]
      exact List.mem_map.mpr ⟨field, hfield, rfl⟩
    exact ⟨hflags _ _ htree, hinside _ htree⟩
  · rintro ⟨hnodup, hfields⟩
    refine Tree.proper_object.mpr ⟨⟨?_, fun name t ht => ?_⟩, fun field hfield => ?_⟩
    · rw [hnames]
      exact hnodup
    · rw [fieldTrees_eq_map] at ht
      obtain ⟨field, hfield, heq⟩ := List.mem_map.mp ht
      cases heq
      exact (hfields field hfield).1
    · rw [fieldTrees_eq_map] at hfield
      obtain ⟨source, hsource, rfl⟩ := List.mem_map.mp hfield
      exact (hfields source hsource).2

@[simp] theorem proper_array (size : Nat) (ls : List Layout) :
    (Layout.array size ls).Proper ↔ ∀ l ∈ ls, l.Proper := by
  have htree : (Layout.array size ls).Proper ↔ ∀ t ∈ itemTrees ls, t.Proper Item.boolean? :=
    Tree.proper_array
  rw [htree, itemTrees_eq_map, List.forall_mem_map]
  rfl

@[simp] theorem proper_tuple (size : Nat) (ls : List Layout) :
    (Layout.tuple size ls).Proper ↔ ∀ l ∈ ls, l.Proper :=
  proper_array size ls

@[simp] theorem proper_variant (tag : String) (l : Layout) :
    (Layout.variant tag l).Proper ↔ l.Proper :=
  Iff.rfl

@[simp] theorem proper_list {α : Type} (f : α → Layout) (as : List α) :
    (list f as).Proper ↔ ∀ a ∈ as, (f a).Proper := by
  simp [list]

/-! ### Fields -/

section Fields

variable {α : Type} (name other : String) (l : Layout) (b : Bool) (a : Option α) (as : List α)
  (f : α → Layout) (fs gs : Fields)

@[simp] theorem lacks_nil : Lacks name [] :=
  List.not_mem_nil

@[simp] theorem lacks_cons : Lacks name ((other, l) :: fs) ↔ name ≠ other ∧ Lacks name fs := by
  simp [Lacks]

@[simp] theorem lacks_append : Lacks name (fs ++ gs) ↔ Lacks name fs ∧ Lacks name gs := by
  simp [Lacks, not_or]

@[simp] theorem lacks_flag : Lacks name (flag other b) ↔ (b = true → name ≠ other) := by
  cases b <;> simp [flag]

@[simp] theorem lacks_optional :
    Lacks name (optional other a f) ↔ (a.isSome = true → name ≠ other) := by
  cases a <;> simp [optional]

@[simp] theorem lacks_nonempty :
    Lacks name (nonempty other as f) ↔ (as ≠ [] → name ≠ other) := by
  cases as <;> simp [nonempty]

@[simp] theorem lacks_ite :
    Lacks name (if b then [(other, l)] else []) ↔ (b = true → name ≠ other) := by
  cases b <;> simp

@[simp] theorem distinct_nil : Distinct [] :=
  List.nodup_nil

@[simp] theorem distinct_cons : Distinct ((name, l) :: fs) ↔ Lacks name fs ∧ Distinct fs := by
  simp [Distinct, Lacks]

@[simp] theorem distinct_flag_append :
    Distinct (flag name b ++ fs) ↔ (b = true → Lacks name fs) ∧ Distinct fs := by
  cases b <;> simp [flag]

@[simp] theorem distinct_optional_append : Distinct (optional name a f ++ fs)
    ↔ (a.isSome = true → Lacks name fs) ∧ Distinct fs := by
  cases a <;> simp [optional]

@[simp] theorem distinct_nonempty_append : Distinct (nonempty name as f ++ fs)
    ↔ (as ≠ [] → Lacks name fs) ∧ Distinct fs := by
  cases as <;> simp [nonempty]

@[simp] theorem distinct_ite_append : Distinct ((if b then [(name, l)] else []) ++ fs)
    ↔ (b = true → Lacks name fs) ∧ Distinct fs := by
  cases b <;> simp

@[simp] theorem distinct_flag : Distinct (flag name b) := by
  cases b <;> simp [flag]

@[simp] theorem distinct_optional : Distinct (optional name a f) := by
  cases a <;> simp [optional]

@[simp] theorem distinct_nonempty : Distinct (nonempty name as f) := by
  cases as <;> simp [nonempty]

@[simp] theorem distinct_ite : Distinct (if b then [(name, l)] else []) := by
  cases b <;> simp

@[simp] theorem fieldsProper_nil : FieldsProper [] :=
  nofun

@[simp] theorem fieldsProper_cons :
    FieldsProper ((name, l) :: fs) ↔ FieldProper name l ∧ FieldsProper fs := by
  simp [FieldsProper]

@[simp] theorem fieldsProper_append :
    FieldsProper (fs ++ gs) ↔ FieldsProper fs ∧ FieldsProper gs := by
  simp [FieldsProper, or_imp, forall_and]

@[simp] theorem fieldsProper_flag :
    FieldsProper (flag name b) ↔ (b = true → flagValue? name = some true) := by
  cases b <;> simp [flag, FieldProper, Item.boolean?, Scalar.boolean?, eq_comm]

@[simp] theorem fieldsProper_optional :
    FieldsProper (optional name a f) ↔ ∀ x ∈ a, FieldProper name (f x) := by
  cases a <;> simp [optional]

@[simp] theorem fieldsProper_nonempty : FieldsProper (nonempty name as f)
    ↔ (as ≠ [] → flagValue? name = none) ∧ ∀ x ∈ as, (f x).Proper := by
  cases as <;> simp [nonempty, FieldProper, eq_comm]

@[simp] theorem fieldsProper_ite :
    FieldsProper (if b then [(name, l)] else []) ↔ (b = true → FieldProper name l) := by
  cases b <;> simp

end Fields

/-! ### Parts that nodes of several families share -/

attribute [local simp] FieldProper flagValue? flagNames Item.boolean? Scalar.boolean?

@[simp] theorem proper_range (r : SourceRange) : (range r).Proper := by
  simp [range]

@[simp] theorem proper_qualType (ctx : Context) (q : QualType) : (qualType ctx q).Proper := by
  unfold qualType
  split
  · simp
  · split
    · simp
    · simp
    · simp

@[simp] theorem boolean?_qualType (ctx : Context) (q : QualType) :
    (qualType ctx q).boolean? = none := by
  unfold qualType
  split
  · rfl
  · split <;> rfl

@[simp] theorem proper_declName (n : DeclName) : (declName n).Proper := by
  simp [declName]

@[simp] theorem boolean?_declName (n : DeclName) : (declName n).boolean? = none := rfl

@[simp] theorem proper_declDigest (ctx : Context) (id : DeclId) (d : Decl) :
    (declDigest ctx id d).Proper := by
  simp [declDigest]

@[simp] theorem boolean?_declDigest (ctx : Context) (id : DeclId) (d : Decl) :
    (declDigest ctx id d).boolean? = none := rfl

@[simp] theorem proper_declRef (ctx : Context) (id : DeclId) : (declRef ctx id).Proper := by
  unfold declRef
  split <;> simp

@[simp] theorem boolean?_declRef (ctx : Context) (id : DeclId) :
    (declRef ctx id).boolean? = none := by
  unfold declRef
  split <;> rfl

@[simp] theorem proper_attr (ctx : Context) (id : AttrId) : (attr ctx id).Proper := by
  unfold attr
  split
  · simp
  · simp [attrNode]

@[simp] theorem proper_nestedNameSpecifier (ctx : Context) (s : NestedNameSpecifier) :
    (nestedNameSpecifier ctx s).Proper := by
  simp [nestedNameSpecifier]

@[simp] theorem proper_ctorInitializer (ctx : Context) (i : CtorInitializer) :
    (ctorInitializer ctx i).Proper := by
  have hsubject : (initializerSubject ctx i.subject).Proper
      ∧ (initializerSubject ctx i.subject).boolean? = none := by
    cases i.subject <;> simp [initializerSubject]
  simp [ctorInitializer, hsubject]

theorem proper_node {κ : Type} [NodeKind κ] (k : κ) {level : κ → List Layout}
    (hlevel : ∀ l, ∀ field ∈ level l, field.Proper) : (node k level).Proper := by
  unfold node
  split
  · simp
  · rw [proper_variant, proper_tuple]
    intro field hfield
    obtain ⟨l, -, hl⟩ := List.mem_flatMap.mp hfield
    exact hlevel l field hl

theorem boolean?_node {κ : Type} [NodeKind κ] (k : κ) (level : κ → List Layout) :
    (node k level).boolean? = none := by
  unfold node
  split <;> rfl

/-! ### Types -/

theorem proper_typePayload (t : TypeNode) (level : TypeKind) : (typePayload t level).Proper := by
  unfold typePayload
  split <;> split <;> simp [functionParams, objCObjectInfo]

theorem proper_typeLevel (id : TypeId) (t : TypeNode) (level : TypeKind) :
    ∀ field ∈ typeLevel id t level, field.Proper := by
  intro field hfield
  have hinfo : (typeInfo id t).Proper := by
    simp [typeInfo]
  unfold typeLevel at hfield
  split at hfield
  · rw [List.mem_singleton.mp hfield]
    exact hinfo
  · split at hfield
    · exact absurd hfield List.not_mem_nil
    · rw [List.mem_singleton.mp hfield]
      exact proper_typePayload t level

@[simp] theorem proper_typeList (ctx : Context) : (typeList ctx).Proper := by
  rw [typeList, proper_array]
  intro l hl
  rcases List.mem_append.mp hl with hl | hl
  · obtain ⟨i, hi, rfl⟩ := List.mem_mapIdx.mp hl
    exact proper_node _ (proper_typeLevel _ _)
  · rw [List.mem_singleton.mp hl]
    simp [noType]

/-! ### Comments -/

theorem proper_commentPayload (c : Comment) (level : CommentKind) :
    (commentPayload c level).Proper := by
  unfold commentPayload
  split <;> split <;>
    simp [inlineCommand, htmlStartTag, htmlAttribute, blockCommand, paramCommand, tParamCommand]

theorem proper_commentLevel (ctx : Context) (node : NodeRef) (c : Comment) (level : CommentKind) :
    ∀ field ∈ commentLevel ctx node c level, field.Proper := by
  intro field hfield
  have hchildren : (commentChildren ctx c).Proper := by
    unfold commentChildren
    split <;> simp
  unfold commentLevel at hfield
  split at hfield
  · rcases List.mem_cons.mp hfield with rfl | hfield
    · simp [commentInfo]
    · rw [List.mem_singleton.mp hfield]
      exact hchildren
  · split at hfield
    · exact absurd hfield List.not_mem_nil
    · rw [List.mem_singleton.mp hfield]
      exact proper_commentPayload c level

/-! ### Statements -/

@[simp] theorem proper_castInfo (c : CastInfo) : (castInfo c).Proper := by
  simp [castInfo, castBase]

@[simp] theorem proper_overloadInfo (ctx : Context) (o : OverloadInfo) :
    (overloadInfo ctx o).Proper := by
  simp [overloadInfo]

@[simp] theorem proper_memberInfo (ctx : Context) (isArrow : Bool) (id : DeclId) :
    (memberInfo ctx isArrow id).Proper := by
  unfold memberInfo
  split <;> simp

@[simp] theorem proper_messageInfo (ctx : Context) (selector : String) (method : Option DeclId)
    (target : Receiver) : (messageInfo ctx selector method target).Proper := by
  have hreceiver : (receiver ctx target).Proper ∧ (receiver ctx target).boolean? = none := by
    cases target <;> simp [receiver]
  simp [messageInfo, hreceiver, -bne_iff_ne]

@[simp] theorem proper_propertyRefInfo (ctx : Context) (p : PropertyRef) :
    (propertyRefInfo ctx p).Proper := by
  have htarget : (propertyTarget ctx p.target).Proper
      ∧ (propertyTarget ctx p.target).boolean? = none := by
    cases p.target <;> simp [propertyTarget, accessorNames]
  simp [propertyRefInfo, htarget]

theorem proper_stmtPayload (ctx : Context) (s : Stmt) (level : StmtKind) :
    (stmtPayload ctx s level).Proper := by
  unfold stmtPayload
  -- one case for each level and payload; the third split is for the parts of a cast
  split <;> split <;> (try split) <;>
    simp [labelRef, lookupInfo, ivarRef, integerLiteral, unaryInfo, constructInfo, cleanupsInfo,
      newInfo, subscriptRefInfo, accessorNames]

theorem proper_stmtLevel (ctx : Context) (node : NodeRef) (s : Stmt) (level : StmtKind) :
    ∀ field ∈ stmtLevel ctx node s level, field.Proper := by
  intro field hfield
  have hchildren : (stmtChildren ctx s).Proper := by
    unfold stmtChildren
    split <;> simp
  unfold stmtLevel at hfield
  split at hfield
  · rcases List.mem_cons.mp hfield with rfl | hfield
    · simp [stmtInfo]
    · rw [List.mem_singleton.mp hfield]
      exact hchildren
  · split at hfield
    · rw [List.mem_singleton.mp hfield]
      simp [exprInfo, -bne_iff_ne]
    · rw [List.mem_singleton.mp hfield]
      simp
  · split at hfield
    · exact absurd hfield List.not_mem_nil
    · rw [List.mem_singleton.mp hfield]
      exact proper_stmtPayload ctx s level

/-! ### Declarations -/

theorem proper_declInfo (ctx : Context) (node : NodeRef) (d : Decl) :
    (declInfo ctx node d).Proper := by
  have hlink : ∀ r, (redeclaration r).Proper ∧ (redeclaration r).boolean? = none := by
    intro r
    cases r <;> simp [redeclaration]
  simp [declInfo, hlink]

theorem proper_declContext (ctx : Context) (opts : Options) (d : Decl) :
    ∀ field ∈ declContext ctx opts d, field.Proper := by
  intro field hfield
  rcases List.mem_cons.mp hfield with rfl | hfield
  · split <;> simp
  · rw [List.mem_singleton.mp hfield]
    simp

theorem proper_declaredType (ctx : Context) (d : Decl) :
    ∀ field ∈ declaredType ctx d, field.Proper := by
  intro field hfield
  rcases List.mem_cons.mp hfield with rfl | hfield
  · split
    · simp
    · split <;> simp
  · rw [List.mem_singleton.mp hfield]
    simp

@[simp] theorem proper_cxxRecordInfo (info : RecordInfo) : (cxxRecordInfo info).Proper := by
  unfold cxxRecordInfo
  split <;> simp

@[simp] theorem proper_functionInfo (ctx : Context) (modulePrivate : Bool) (info : FunctionInfo) :
    (functionInfo ctx modulePrivate info).Proper := by
  simp [functionInfo]

@[simp] theorem proper_ivarInfo (info : FieldInfo) : (ivarInfo info).Proper := by
  simp [ivarInfo, -bne_iff_ne]

@[simp] theorem proper_varInfo (modulePrivate : Bool) (info : VarInfo) :
    (varInfo modulePrivate info).Proper := by
  simp [varInfo, -bne_iff_ne]

@[simp] theorem proper_objCPropertyInfo (ctx : Context) (info : ObjCPropertyInfo) :
    (objCPropertyInfo ctx info).Proper := by
  have hattribute : ∀ a, (propertyAttribute ctx a).Proper := by
    intro a
    cases a <;> simp [propertyAttribute]
  simp [objCPropertyInfo, hattribute, -bne_iff_ne]

@[simp] theorem proper_blockInfo (ctx : Context) (info : BlockInfo) :
    (blockInfo ctx info).Proper := by
  have hcapture : ∀ c, (blockCapture ctx c).Proper := by
    intro c
    simp [blockCapture]
  simp [blockInfo, hcapture]

theorem proper_declPayload (ctx : Context) (d : Decl) (level : DeclKind) :
    (declPayload ctx d level).Proper := by
  unfold declPayload
  split <;> (try split) <;>
    simp [enumInfo, recordInfo, fieldInfo, namespaceInfo, usingDirectiveInfo, namespaceAliasInfo,
      objCMethodInfo, objCCategoryInfo, objCCategoryImplInfo, objCInterfaceInfo,
      objCImplementationInfo, objCPropertyImplInfo]

theorem proper_declLevel (ctx : Context) (opts : Options) (node : NodeRef) (d : Decl)
    (level : DeclKind) : ∀ field ∈ declLevel ctx opts node d level, field.Proper := by
  have hcontext := proper_declContext ctx opts d
  have hpayload := proper_declPayload ctx d
  unfold declLevel
  split
  · simpa using proper_declInfo ctx node d
  · simp
  · exact proper_declaredType ctx d
  · simp
  iterate 4 exact hcontext
  · simpa [or_imp, forall_and] using hcontext
  iterate 2 simpa [or_imp, forall_and, hpayload] using hcontext
  · split
    · simp
    · simpa using hpayload level

end Layout

/-! ### Sites -/

namespace Site

variable (ctx : Context) (opts : Options)

/-- The objects of whatever a site defines are proper, in any context. -/
theorem proper_layout (s : Site) : (s.layout ctx opts).Proper := by
  unfold Site.layout
  split
  · exact Layout.proper_node _ (Layout.proper_declLevel ctx opts _ _)
  · split
    · exact Layout.proper_leaf _
    · exact Layout.proper_node _ (Layout.proper_declLevel ctx opts _ _)
  · exact Layout.proper_node _ (Layout.proper_stmtLevel ctx _ _)
  · split
    · exact Layout.proper_leaf _
    · exact Layout.proper_node _ (Layout.proper_stmtLevel ctx _ _)
  · exact Layout.proper_node _ (Layout.proper_commentLevel ctx _ _)
  · split
    · exact Layout.proper_leaf _
    · exact Layout.proper_node _ (Layout.proper_commentLevel ctx _ _)

/-- What a site defines is no boolean. -/
theorem boolean?_layout (s : Site) : (s.layout ctx opts).boolean? = none := by
  unfold Site.layout
  split
  · exact Layout.boolean?_node ..
  · split
    · rfl
    · exact Layout.boolean?_node ..
  · exact Layout.boolean?_node ..
  · split
    · rfl
    · exact Layout.boolean?_node ..
  · exact Layout.boolean?_node ..
  · split
    · rfl
    · exact Layout.boolean?_node ..

end Site

end SyntaxExport
