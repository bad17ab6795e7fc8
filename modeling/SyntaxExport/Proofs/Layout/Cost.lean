import Mathlib.Algebra.Order.BigOperators.Group.List
import Mathlib.Algebra.Order.Group.Nat
import SyntaxExport.Proofs.Layout.Distinct
import SyntaxExport.Proofs.Pass.Cost
import SyntaxExport.Proofs.Walk.Volume

/-!
# The cost of layouts

A layout never goes deeper than the mentions in it, and only a list makes it wide. So it is enough to
say of each layout how deep it is, and which entries its lists are counted by (`Layout.Fits`): the cost
is then a constant for each entry and each component of a name (`Layout.Fits.cost_le`). The constant is
`factor`, one level of which is for every level of the layout.

Two lists have elements with lists of their own, and do not fit: attributes, which have parameters
(`cost_attrs_le`), and the types of a translation unit (`cost_typeList_le`). Their elements fit one by
one, each with entries of its own.
-/

namespace SyntaxExport

namespace Layout

/-- The cost of a layout, where whatever it defines counts as absent. -/
def cost (l : Layout) : Nat :=
  l.tree.cost

/-! ### Containers -/

/-- The cost of fields. -/
def fieldCost (fs : Fields) : Nat :=
  (fs.map fun field => 1 + field.2.cost).sum

/-- The cost of the elements of an array or tuple. -/
def itemCost (ls : List Layout) : Nat :=
  (ls.map cost).sum

@[simp] theorem cost_leaf (a : Item) : (Layout.leaf a).cost = a.cost :=
  Tree.cost_leaf a

@[simp] theorem cost_object (size : Nat) (fs : Fields) :
    (Layout.object size fs).cost = 2 + fieldCost fs := by
  rw [cost, tree, Tree.cost_object, fieldTrees_eq_map, Tree.fieldCost, List.map_map]
  rfl

@[simp] theorem cost_array (size : Nat) (ls : List Layout) :
    (Layout.array size ls).cost = 2 + itemCost ls := by
  rw [cost, tree, Tree.cost_array, itemTrees_eq_map, Tree.itemCost, List.map_map]
  rfl

@[simp] theorem cost_tuple (size : Nat) (ls : List Layout) :
    (Layout.tuple size ls).cost = 2 + itemCost ls :=
  cost_array size ls

@[simp] theorem cost_variant (tag : String) (l : Layout) :
    (Layout.variant tag l).cost = 2 + l.cost :=
  Tree.cost_variant tag l.tree

theorem itemCost_le {n : Nat} {ls : List Layout} (h : ∀ l ∈ ls, l.cost ≤ n) :
    itemCost ls ≤ ls.length * n := by
  have hsum := List.sum_le_card_nsmul (ls.map cost) n (List.forall_mem_map.mpr h)
  rwa [List.length_map, Nat.nsmul_eq_mul] at hsum

theorem fieldCost_eq (fs : Fields) :
    fieldCost fs = fs.length + itemCost (fs.map (·.2)) := by
  induction fs with
  | nil => rfl
  | cons field fs ih =>
    have hcons : fieldCost (field :: fs) = 1 + field.2.cost + fieldCost fs := rfl
    have hitems : itemCost ((field :: fs).map (·.2))
        = field.2.cost + itemCost (fs.map (·.2)) := rfl
    rw [hcons, hitems, ih, List.length_cons]
    omega

/-! ### Layouts of bounded depth -/

/-- A layout of a depth at most, whose objects and tuples have few parts. Its arrays have at most
`entries` elements with no such arrays inside, or are lists of at most `names` leaves. -/
def Fits (names : Nat) : Nat → Nat → Layout → Prop
  | _, _, .leaf _ => True
  | _, 0, _ => False
  | entries, depth + 1, .object _ fs =>
    fs.length ≤ 12 ∧ ∀ field ∈ fs, Fits names entries depth field.2
  | entries, depth + 1, .array _ ls => (ls.length ≤ entries ∧ ∀ l ∈ ls, Fits names 0 depth l)
    ∨ ls.length ≤ names ∧ ∀ l ∈ ls, ∃ a, l = .leaf a
  | entries, depth + 1, .tuple _ ls => ls.length ≤ 12 ∧ ∀ l ∈ ls, Fits names entries depth l
  | entries, depth + 1, .variant _ l => Fits names entries depth l

/-- Fields of a depth at most. -/
def FieldsFit (names entries depth : Nat) (fs : Fields) : Prop :=
  ∀ field ∈ fs, Fits names entries depth field.2

/-- What a layout of a depth costs for each entry and each component of a name. -/
def factor : Nat → Nat
  | 0 => 30
  | depth + 1 => 14 + 12 * factor depth

theorem le_factor (depth : Nat) : 30 ≤ factor depth := by
  induction depth with
  | zero => exact Nat.le_refl 30
  | succ depth ih =>
    rw [factor]
    omega

/-- A layout of one level more costs a constant factor more. -/
theorem le_factor_succ {depth n m : Nat} (hm : 0 < m) (h : n ≤ 14 + 12 * (factor depth * m)) :
    n ≤ factor (depth + 1) * m := by
  rw [factor, Nat.add_mul, Nat.mul_assoc]
  omega

/-- A factor is enough where a smaller one is. -/
theorem le_factor_of_le {d d' n m : Nat} (h : factor d ≤ factor d') (hn : n ≤ factor d * m) :
    n ≤ factor d' * m :=
  Nat.le_trans hn (Nat.mul_le_mul_right m h)

theorem cost_item_le (a : Item) : a.cost ≤ 30 := by
  cases a <;> simp [Item.cost]

/-- Few parts cost as much as the most of them does, up to a constant. -/
theorem cost_object_le {size n : Nat} {fs : Fields} (hlength : fs.length ≤ 12)
    (h : ∀ field ∈ fs, field.2.cost ≤ n) : (Layout.object size fs).cost ≤ 14 + 12 * n := by
  have hitems : itemCost (fs.map (·.2)) ≤ (fs.map (·.2)).length * n :=
    itemCost_le (List.forall_mem_map.mpr h)
  have hmul : fs.length * n ≤ 12 * n := Nat.mul_le_mul_right n hlength
  rw [List.length_map] at hitems
  rw [cost_object, fieldCost_eq]
  omega

theorem cost_tuple_le (size : Nat) {n : Nat} {ls : List Layout} (hlength : ls.length ≤ 12)
    (h : ∀ l ∈ ls, l.cost ≤ n) : (Layout.tuple size ls).cost ≤ 2 + 12 * n := by
  have hitems := itemCost_le h
  have hmul : ls.length * n ≤ 12 * n := Nat.mul_le_mul_right n hlength
  rw [cost_tuple]
  omega

/-- A layout of bounded depth costs a constant for each entry and each component of a name. -/
theorem Fits.cost_le {names : Nat} (hnames : 0 < names) : ∀ {depth entries : Nat} {l : Layout},
    l.Fits names entries depth → l.cost ≤ factor depth * ((1 + entries) * names)
  | depth, entries, .leaf a, _ => by
    have hunit : 0 < (1 + entries) * names := Nat.mul_pos (by omega) hnames
    have hfactor := Nat.mul_le_mul (le_factor depth) hunit
    have ha := cost_item_le a
    rw [cost_leaf]
    omega
  | depth + 1, entries, .object size fs, h => by
    obtain ⟨hlength, hfields⟩ := h
    refine le_factor_succ (Nat.mul_pos (by omega) hnames) ?_
    exact cost_object_le hlength fun field hfield => (hfields field hfield).cost_le hnames
  | depth + 1, entries, .tuple size ls, h => by
    obtain ⟨hlength, hls⟩ := h
    refine le_factor_succ (Nat.mul_pos (by omega) hnames) ?_
    have htuple := cost_tuple_le size hlength fun l hl => (hls l hl).cost_le hnames
    omega
  | depth + 1, entries, .variant tag l, h => by
    have hl : l.cost ≤ factor depth * ((1 + entries) * names) := Fits.cost_le hnames h
    refine le_factor_succ (Nat.mul_pos (by omega) hnames) ?_
    rw [cost_variant]
    omega
  | depth + 1, entries, .array size ls, h => by
    have hunit : (1 + entries) * names = names + entries * names := by
      rw [Nat.add_mul, Nat.one_mul]
    have hsum : factor depth * (names + entries * names)
        = factor depth * names + factor depth * (entries * names) := Nat.mul_add ..
    refine le_factor_succ (Nat.mul_pos (by omega) hnames) ?_
    rw [cost_array, hunit]
    rcases h with ⟨hlength, hls⟩ | ⟨hlength, hls⟩
    · have hitems := itemCost_le fun l hl => (hls l hl).cost_le hnames
      have hmul := Nat.mul_le_mul_right (factor depth * ((1 + 0) * names)) hlength
      have hswap : entries * (factor depth * ((1 + 0) * names))
          = factor depth * (entries * names) := by
        rw [Nat.mul_left_comm, Nat.add_zero, Nat.one_mul]
      omega
    · have hitems : itemCost ls ≤ ls.length * 30 := itemCost_le fun l hl => by
        obtain ⟨a, rfl⟩ := hls l hl
        exact cost_item_le a
      have hfactor := Nat.mul_le_mul_right names (le_factor depth)
      omega

/-! ### Fields -/

section Fields

variable {names entries depth : Nat} {α : Type}

@[simp] theorem fits_leaf (a : Item) : (Layout.leaf a).Fits names entries depth := by
  cases depth <;> trivial

@[simp] theorem fits_object (size : Nat) (fs : Fields) :
    (Layout.object size fs).Fits names entries (depth + 1)
      ↔ fs.length ≤ 12 ∧ FieldsFit names entries depth fs :=
  Iff.rfl

@[simp] theorem fits_tuple (size : Nat) (ls : List Layout) :
    (Layout.tuple size ls).Fits names entries (depth + 1)
      ↔ ls.length ≤ 12 ∧ ∀ l ∈ ls, l.Fits names entries depth :=
  Iff.rfl

@[simp] theorem fits_variant (tag : String) (l : Layout) :
    (Layout.variant tag l).Fits names entries (depth + 1) ↔ l.Fits names entries depth :=
  Iff.rfl

/-- A list that is short enough fits if its elements do. -/
@[simp] theorem fits_list (f : α → Layout) {as : List α} (hlength : as.length ≤ entries) :
    (list f as).Fits names entries (depth + 1) ↔ ∀ a ∈ as, (f a).Fits names 0 depth := by
  constructor
  · rintro (⟨-, hls⟩ | ⟨-, hls⟩) a ha
    · exact hls _ (List.mem_map_of_mem ha)
    · obtain ⟨x, hx⟩ := hls _ (List.mem_map_of_mem ha)
      rw [hx]
      exact fits_leaf x
  · intro h
    refine .inl ⟨by rwa [List.length_map], List.forall_mem_map.mpr h⟩

@[simp] theorem fieldsFit_nil : FieldsFit names entries depth [] :=
  nofun

@[simp] theorem fieldsFit_cons (name : String) (l : Layout) (fs : Fields) :
    FieldsFit names entries depth ((name, l) :: fs)
      ↔ l.Fits names entries depth ∧ FieldsFit names entries depth fs :=
  List.forall_mem_cons

@[simp] theorem fieldsFit_append (fs gs : Fields) : FieldsFit names entries depth (fs ++ gs)
    ↔ FieldsFit names entries depth fs ∧ FieldsFit names entries depth gs :=
  List.forall_mem_append

@[simp] theorem fieldsFit_flag (name : String) (b : Bool) :
    FieldsFit names entries depth (flag name b) := by
  cases b <;> simp [flag]

@[simp] theorem fieldsFit_optional (name : String) (a : Option α) (f : α → Layout) :
    FieldsFit names entries depth (optional name a f)
      ↔ ∀ x ∈ a, (f x).Fits names entries depth := by
  cases a <;> simp [optional]

@[simp] theorem fieldsFit_nonempty (name : String) {as : List α} (f : α → Layout)
    (hlength : as.length ≤ entries) : FieldsFit names entries (depth + 1) (nonempty name as f)
      ↔ ∀ a ∈ as, (f a).Fits names 0 depth := by
  cases as with
  | nil => simp [nonempty]
  | cons a as =>
    simp [nonempty, fits_list f hlength]

@[simp] theorem fieldsFit_ite (name : String) (l : Layout) (b : Bool) :
    FieldsFit names entries depth (if b then [(name, l)] else [])
      ↔ (b = true → l.Fits names entries depth) := by
  cases b <;> simp

end Fields

/-! ### Mentions -/

section Parts

variable {entries depth : Nat} (ctx : Context)

@[simp] theorem fits_range {names : Nat} (r : SourceRange) :
    (range r).Fits names entries (depth + 1) := by
  simp [range]

@[simp] theorem fits_qualType {names : Nat} (q : QualType) :
    (qualType ctx q).Fits names entries (depth + 1) := by
  unfold qualType
  split
  · simp
  · split
    · simp
    · simp
    · simp
      grind [Bool.toNat_le]

theorem fits_declName {n : DeclName} (h : n.components.length ≤ ctx.nameBound) :
    (declName n).Fits ctx.nameBound entries (depth + 2) := by
  have hcomponents : (list string n.components).Fits ctx.nameBound entries (depth + 1) := by
    refine .inr ⟨by rwa [List.length_map], List.forall_mem_map.mpr fun s _ => ?_⟩
    exact ⟨_, rfl⟩
  simp [declName, hcomponents]

/-- A declaration of the context has a name of bounded length, as the empty name has. -/
theorem length_nameOf_le {id : DeclId} {d : Decl} (h : ctx.decl? id = some d) :
    (nameOf d).components.length ≤ ctx.nameBound := by
  cases hname : d.name with
  | none =>
    rw [nameOf, hname]
    exact Nat.le_add_right 1 _
  | some n =>
    have hlength := Context.length_components_le h hname
    rw [nameOf, hname, Context.nameBound]
    exact Nat.le_trans hlength (Nat.le_add_left _ _)

@[simp] theorem fits_declDigest {id : DeclId} {d : Decl} (h : ctx.decl? id = some d) :
    (declDigest ctx id d).Fits ctx.nameBound entries (depth + 3) := by
  have hname : (declName (nameOf d)).Fits ctx.nameBound entries (depth + 2) :=
    fits_declName ctx (length_nameOf_le ctx h)
  simp [declDigest, hname]
  grind [Bool.toNat_le]

@[simp] theorem fits_declRef (id : DeclId) :
    (declRef ctx id).Fits ctx.nameBound entries (depth + 3) := by
  unfold declRef
  split
  · simp
  · next d hd => exact fits_declDigest ctx hd

@[simp] theorem fits_nestedNameSpecifier (s : NestedNameSpecifier) :
    (nestedNameSpecifier ctx s).Fits ctx.nameBound entries (depth + 4) := by
  simp [nestedNameSpecifier]
  grind [Bool.toNat_le]

@[simp] theorem fits_ctorInitializer (i : CtorInitializer) :
    (ctorInitializer ctx i).Fits ctx.nameBound entries (depth + 5) := by
  have hsubject : (initializerSubject ctx i.subject).Fits ctx.nameBound entries (depth + 4) := by
    cases i.subject <;> simp [initializerSubject]
  simp [ctorInitializer, hsubject]
  grind [Bool.toNat_le]

end Parts

/-! ### Types -/

theorem fits_typePayload {t : TypeNode} {names entries depth : Nat}
    (h : t.payload.entries ≤ entries) (level : TypeKind) :
    (typePayload t level).Fits names entries (depth + 2) := by
  -- A level and a payload that do not go together are a fault. Otherwise the payload is known, so its
  -- lists are among the entries.
  unfold typePayload
  split <;> split
  all_goals first
    | exact fits_leaf _
    | next hp =>
      simp only [hp, TypePayload.entries] at h
      simp (disch := omega) [functionParams, objCObjectInfo]
      try grind [Bool.toNat_le]

/-! ### Comments -/

theorem length_args_le {p : CommentPayload} {c : BlockCommand} (h : p.command? = some c) :
    c.args.length ≤ p.entries := by
  cases p <;> cases h <;> simp [CommentPayload.entries]

theorem fits_commentPayload {c : Comment} {names entries depth : Nat}
    (h : c.payload.entries ≤ entries) (level : CommentKind) :
    (commentPayload c level).Fits names entries (depth + 3) := by
  unfold commentPayload
  split <;> split
  all_goals first
    | exact fits_leaf _
    | next hp =>
      first
      | have hargs := length_args_le hp
      | simp only [hp, CommentPayload.entries] at h
      simp (disch := omega) [inlineCommand, htmlStartTag, htmlAttribute, blockCommand, paramCommand,
        tParamCommand]
      try grind [Bool.toNat_le]

/-! ### Statements -/

section Payloads

variable {entries depth : Nat} (ctx : Context)

@[simp] theorem fits_memberInfo (isArrow : Bool) (id : DeclId) :
    (memberInfo ctx isArrow id).Fits ctx.nameBound entries (depth + 4) := by
  unfold memberInfo
  split
  · simp
  · next d hd =>
    have hname : (declName (nameOf d)).Fits ctx.nameBound entries (depth + 3) :=
      fits_declName ctx (length_nameOf_le ctx hd)
    simp [hname, hd]
    grind [Bool.toNat_le]

@[simp] theorem fits_messageInfo {names : Nat} (selector : String) (method : Option DeclId)
    (target : Receiver) :
    (messageInfo ctx selector method target).Fits names entries (depth + 3) := by
  have hreceiver : (receiver ctx target).Fits names entries (depth + 2) := by
    cases target <;> simp [receiver]
  simp [messageInfo, hreceiver, -bne_iff_ne]
  grind [Bool.toNat_le]

@[simp] theorem fits_propertyRefInfo (p : PropertyRef) :
    (propertyRefInfo ctx p).Fits ctx.nameBound entries (depth + 5) := by
  have htarget : (propertyTarget ctx p.target).Fits ctx.nameBound entries (depth + 4) := by
    cases p.target <;> simp [propertyTarget, accessorNames]
    grind [Bool.toNat_le]
  simp [propertyRefInfo, htarget]
  grind [Bool.toNat_le]

theorem fits_stmtPayload {s : Stmt} (h : ctx.payloadEntries s.payload ≤ entries) {level : StmtKind}
    (hlevel : level ≠ .attributedStmt) :
    (stmtPayload ctx s level).Fits ctx.nameBound entries (depth + 6) := by
  unfold stmtPayload
  split <;> split <;> (try split)
  -- The attributes are left to `cost_attrs_le`.
  all_goals first
    | exact absurd rfl hlevel
    | exact fits_leaf _
    | next hp =>
      simp only [hp, Context.payloadEntries] at h
      simp (disch := omega) [labelRef, lookupInfo, ivarRef, integerLiteral, unaryInfo, constructInfo,
        cleanupsInfo, newInfo, subscriptRefInfo, accessorNames, castInfo, castBase, overloadInfo]
      try grind [Bool.toNat_le]

/-! ### Declarations -/

@[simp] theorem fits_cxxRecordInfo {names : Nat} {info : RecordInfo}
    (h : (DeclPayload.record info).entries ≤ entries) :
    (cxxRecordInfo info).Fits names entries (depth + 2) := by
  simp only [DeclPayload.entries] at h
  unfold cxxRecordInfo
  split
  · simp (disch := omega)
    grind [Bool.toNat_le]
  · simp

@[simp] theorem fits_varInfo {names : Nat} (modulePrivate : Bool) (info : VarInfo) :
    (varInfo modulePrivate info).Fits names entries (depth + 1) := by
  simp [varInfo, -bne_iff_ne]
  grind [Bool.toNat_le]

@[simp] theorem fits_ivarInfo {names : Nat} (info : FieldInfo) :
    (ivarInfo info).Fits names entries (depth + 1) := by
  simp [ivarInfo, -bne_iff_ne]
  grind [Bool.toNat_le]

@[simp] theorem fits_objCPropertyInfo {info : ObjCPropertyInfo}
    (h : (DeclPayload.objCProperty info).entries ≤ entries) :
    (objCPropertyInfo ctx info).Fits ctx.nameBound entries (depth + 6) := by
  simp only [DeclPayload.entries] at h
  have hattribute : ∀ a, (propertyAttribute ctx a).Fits ctx.nameBound 0 (depth + 4) := by
    intro a
    cases a <;> simp [propertyAttribute]
  simp (disch := omega) [objCPropertyInfo, hattribute, -bne_iff_ne]
  grind [Bool.toNat_le]

@[simp] theorem fits_blockCapture (c : BlockCapture) :
    (blockCapture ctx c).Fits ctx.nameBound entries (depth + 4) := by
  simp [blockCapture]
  grind [Bool.toNat_le]

theorem fits_declPayload {d : Decl} (h : d.payload.entries ≤ entries) (level : DeclKind) :
    (declPayload ctx d level).Fits ctx.nameBound entries (depth + 7) := by
  unfold declPayload
  split <;> (try split)
  all_goals first
    | exact fits_leaf _
    -- Records and properties have lemmas that count all the entries of their payloads.
    | next hp =>
      rw [hp] at h
      simp [h]
    | next hp =>
      simp only [hp, DeclPayload.entries] at h
      simp (disch := omega) [enumInfo, recordInfo, fieldInfo, namespaceInfo, usingDirectiveInfo,
        namespaceAliasInfo, objCMethodInfo, objCCategoryInfo, objCCategoryImplInfo,
        objCInterfaceInfo, objCImplementationInfo, objCPropertyImplInfo, functionInfo, blockInfo]
      try grind [Bool.toNat_le]

end Payloads

/-! ### Attributes -/

section Attributes

variable (ctx : Context)

theorem cost_attr_le (id : AttrId) : (attr ctx id).cost ≤ factor 3 * (1 + ctx.parameterCount id) := by
  unfold attr
  split
  · rw [cost_leaf]
    exact Nat.zero_le _
  · next a ha =>
    have hcount : ctx.parameterCount id = a.parameters.length := by
      rw [Context.parameterCount, ha]
      rfl
    have hfits : (attrNode id a).Fits 1 (ctx.parameterCount id) 3 := by
      simp [attrNode, hcount]
      grind [Bool.toNat_le]
    have hcost := hfits.cost_le Nat.one_pos
    rwa [Nat.mul_one] at hcost

theorem itemCost_attrs_le (attrs : List AttrId) :
    itemCost (attrs.map (attr ctx)) ≤ factor 3 * ctx.attrEntries attrs := by
  induction attrs with
  | nil => exact Nat.zero_le _
  | cons id attrs ih =>
    have hid := cost_attr_le ctx id
    have hcons : itemCost ((id :: attrs).map (attr ctx))
        = (attr ctx id).cost + itemCost (attrs.map (attr ctx)) := rfl
    have hentries : ctx.attrEntries (id :: attrs)
        = (1 + ctx.parameterCount id) + ctx.attrEntries attrs := rfl
    rw [hcons, hentries, Nat.mul_add]
    omega

/-- Attributes are the one list whose elements have lists of their own. -/
theorem cost_attrs_le {attrs : List AttrId} {names entries : Nat} (hnames : 0 < names)
    (h : ctx.attrEntries attrs ≤ entries) :
    (list (attr ctx) attrs).cost ≤ factor 4 * ((1 + entries) * names) := by
  have hitems := itemCost_attrs_le ctx attrs
  have hentries : ctx.attrEntries attrs ≤ (1 + entries) * names := by
    have hunit : 1 + entries ≤ (1 + entries) * names := Nat.le_mul_of_pos_right _ hnames
    omega
  have hmul : factor 3 * ctx.attrEntries attrs ≤ factor 3 * ((1 + entries) * names) :=
    Nat.mul_le_mul_left _ hentries
  refine le_factor_succ (Nat.mul_pos (by omega) hnames) ?_
  rw [list, cost_array]
  omega

end Attributes

/-! ### Nodes -/

/-- A node costs as much as the most of its fields does, up to a constant. -/
theorem cost_node_le {κ : Type} [NodeKind κ] {k : κ} {level : κ → List Layout} {n : Nat}
    (hsize : NodeKind.tupleSize k ≤ 12)
    (hlength : ∀ a, (level a).length = NodeKind.ownFieldCount a)
    (h : ∀ a ∈ NodeKind.lineage k, ∀ field ∈ level a, field.cost ≤ n) :
    (node k level).cost ≤ 4 + 12 * n := by
  unfold node
  split
  · rw [cost_leaf]
    exact Nat.zero_le _
  · have hitems : itemCost ((NodeKind.lineage k).flatMap level)
        ≤ ((NodeKind.lineage k).flatMap level).length * n := itemCost_le fun field hfield => by
      obtain ⟨a, ha, hfield⟩ := List.mem_flatMap.mp hfield
      exact h a ha field hfield
    rw [length_flatMap_lineage k fun a _ => hlength a] at hitems
    have hmul : NodeKind.tupleSize k * n ≤ 12 * n := Nat.mul_le_mul_right n hsize
    rw [cost_variant, cost_tuple]
    omega

/-! #### Types -/

theorem fits_typeLevel {id : TypeId} {t : TypeNode} {level : TypeKind} :
    ∀ field ∈ typeLevel id t level, field.Fits 1 t.payload.entries 2 := by
  intro field hfield
  unfold typeLevel at hfield
  split at hfield
  · rw [List.mem_singleton.mp hfield]
    simp [typeInfo]
    grind [Bool.toNat_le]
  · split at hfield
    · cases hfield
    · rw [List.mem_singleton.mp hfield]
      exact fits_typePayload (Nat.le_refl _) level

theorem cost_typeNode_le (id : TypeId) (t : TypeNode) :
    (typeNode id t).cost ≤ factor 3 * (1 + t.payload.entries) := by
  have hsize : NodeKind.tupleSize t.kind ≤ 12 := by
    cases t.kind <;> decide
  have hnode := cost_node_le hsize (length_typeLevel id t) fun a _ field hfield =>
    (fits_typeLevel field hfield).cost_le Nat.one_pos
  rw [Nat.mul_one] at hnode
  refine le_factor_succ (by omega) ?_
  rw [typeNode]
  omega

theorem itemCost_mapIdx_le {n : Nat} {f : Nat → TypeNode → Layout}
    (h : ∀ i t, (f i t).cost ≤ n * (1 + t.payload.entries)) (ts : List TypeNode) :
    itemCost (ts.mapIdx f) ≤ n * (ts.map fun t => 1 + t.payload.entries).sum := by
  induction ts generalizing f with
  | nil => exact Nat.zero_le _
  | cons t ts ih =>
    have hcons : itemCost ((t :: ts).mapIdx f)
        = (f 0 t).cost + itemCost (ts.mapIdx fun i => f (i + 1)) := by
      rw [List.mapIdx_cons]
      rfl
    have ht := h 0 t
    have hts : itemCost (ts.mapIdx fun i => f (i + 1))
        ≤ n * (ts.map fun t => 1 + t.payload.entries).sum := ih fun i t => h (i + 1) t
    rw [hcons, List.map_cons, List.sum_cons, Nat.mul_add]
    omega

theorem cost_typeList_le (ctx : Context) :
    (typeList ctx).cost ≤ factor 4 * (1 + ctx.typeVolume) := by
  have htypes : itemCost (ctx.types.toList.mapIdx fun i t => typeNode (Id.ofSize i) t)
      ≤ factor 3 * ctx.typeVolume :=
    itemCost_mapIdx_le (fun i t => cost_typeNode_le (Id.ofSize i) t) ctx.types.toList
  have hmul : factor 3 * ctx.typeVolume ≤ factor 3 * (1 + ctx.typeVolume) :=
    Nat.mul_le_mul_left _ (Nat.le_add_left _ _)
  have hnoType : noType.cost = 10 := rfl
  refine le_factor_succ (by omega) ?_
  rw [typeList, cost_array, itemCost, List.map_append, List.sum_append, ← itemCost,
    List.map_singleton, List.sum_singleton, hnoType]
  omega

/-! #### Comments -/

theorem fits_commentLevel {ctx : Context} {node : NodeRef} {c : Comment} {entries : Nat}
    (h : c.children.length + c.payload.entries ≤ entries) {level : CommentKind} :
    ∀ field ∈ commentLevel ctx node c level, field.Fits 1 entries 3 := by
  intro field hfield
  have hchildren : (commentChildren ctx c).Fits 1 entries 3 := by
    unfold commentChildren
    split
    · simp
    · simp (disch := omega)
  unfold commentLevel at hfield
  split at hfield
  · rcases List.mem_cons.mp hfield with rfl | hfield
    · simp [commentInfo]
    · rw [List.mem_singleton.mp hfield]
      exact hchildren
  · split at hfield
    · cases hfield
    · rw [List.mem_singleton.mp hfield]
      exact fits_commentPayload (by omega) level

theorem cost_commentNode_le (ctx : Context) (node : NodeRef) (c : Comment) :
    (commentNode ctx node c).cost ≤ factor 4 * (1 + c.children.length + c.payload.entries) := by
  have hsize : NodeKind.tupleSize c.kind ≤ 12 := by
    cases c.kind <;> decide
  have hnode := cost_node_le hsize (length_commentLevel ctx node c) fun a _ field hfield =>
    (fits_commentLevel (Nat.le_refl _) field hfield).cost_le Nat.one_pos
  rw [Nat.mul_one, ← Nat.add_assoc] at hnode
  refine le_factor_succ (by omega) ?_
  rw [commentNode]
  omega

/-! #### Statements -/

section Nodes

variable (ctx : Context)

theorem nameBound_pos : 0 < ctx.nameBound :=
  Nat.lt_of_lt_of_le Nat.one_pos (Nat.le_add_right 1 _)

/-- What fits in the entries of a node costs its share of them. -/
theorem cost_of_fits {depth entries : Nat} {l : Layout} (h : l.Fits ctx.nameBound entries depth) :
    l.cost ≤ factor depth * ((1 + entries) * ctx.nameBound) :=
  h.cost_le (nameBound_pos ctx)

theorem cost_stmtPayload_le {s : Stmt} {entries : Nat} (h : ctx.payloadEntries s.payload ≤ entries)
    (level : StmtKind) :
    (stmtPayload ctx s level).cost ≤ factor 6 * ((1 + entries) * ctx.nameBound) := by
  by_cases hlevel : level = .attributedStmt
  · subst hlevel
    simp only [stmtPayload]
    split
    · next attrs hp =>
      rw [hp, Context.payloadEntries] at h
      exact le_factor_of_le (by decide) (cost_attrs_le ctx (nameBound_pos ctx) h)
    · exact cost_of_fits ctx (fits_leaf _)
  · exact cost_of_fits ctx (fits_stmtPayload ctx h hlevel)

theorem cost_stmtLevel_le (node : NodeRef) (s : Stmt) {level : StmtKind} :
    ∀ field ∈ stmtLevel ctx node s level,
      field.cost ≤ factor 6 * ((1 + ctx.stmtEntries s) * ctx.nameBound) := by
  intro field hfield
  have hentries : ctx.stmtEntries s = s.children.length + ctx.payloadEntries s.payload := rfl
  unfold stmtLevel at hfield
  split at hfield
  · rcases List.mem_cons.mp hfield with rfl | hfield
    · exact cost_of_fits ctx (by simp [stmtInfo])
    · rw [List.mem_singleton.mp hfield]
      refine cost_of_fits ctx ?_
      unfold stmtChildren
      split
      · simp
      · simp (disch := omega)
  · split at hfield
    · rw [List.mem_singleton.mp hfield]
      refine cost_of_fits ctx ?_
      simp [exprInfo, -bne_iff_ne]
      grind [Bool.toNat_le]
    · rw [List.mem_singleton.mp hfield]
      exact cost_of_fits ctx (fits_leaf _)
  · split at hfield
    · cases hfield
    · rw [List.mem_singleton.mp hfield]
      exact cost_stmtPayload_le ctx (by omega) level

theorem cost_stmtNode_le (node : NodeRef) (s : Stmt) :
    (stmtNode ctx node s).cost ≤ factor 7 * ((1 + ctx.stmtEntries s) * ctx.nameBound) := by
  have hsize : NodeKind.tupleSize s.kind ≤ 12 := by
    cases s.kind <;> decide
  have hnode := cost_node_le hsize (length_stmtLevel ctx node s) fun a _ =>
    cost_stmtLevel_le ctx node s
  refine le_factor_succ (Nat.mul_pos (by omega) (nameBound_pos ctx)) ?_
  rw [stmtNode]
  omega

/-! #### Declarations -/

theorem cost_declInfo_le (node : NodeRef) (d : Decl) :
    (declInfo ctx node d).cost ≤ factor 5 * ((1 + ctx.declEntries d) * ctx.nameBound) := by
  have hentries : ctx.attrEntries d.attrs ≤ ctx.declEntries d := by
    rw [Context.declEntries]
    omega
  have hattrs := cost_attrs_le ctx (nameBound_pos ctx) hentries
  have hlink : ∀ r, (redeclaration r).Fits ctx.nameBound (ctx.declEntries d) 4 := by
    intro r
    cases r <;> simp [redeclaration]
  have hfits : ∀ {fs : Fields}, FieldsFit ctx.nameBound (ctx.declEntries d) 4 fs →
      ∀ field ∈ fs, field.2.cost ≤ factor 4 * ((1 + ctx.declEntries d) * ctx.nameBound) :=
    fun h field hfield => cost_of_fits ctx (h field hfield)
  refine le_factor_succ (Nat.mul_pos (by omega) (nameBound_pos ctx)) (cost_object_le ?_ ?_)
  · simp
    grind [Bool.toNat_le]
  · refine List.forall_mem_append.mpr ⟨List.forall_mem_append.mpr ⟨hfits ?_, ?_⟩, hfits ?_⟩
    · simp [hlink]
    · intro field hfield
      rw [List.mem_singleton.mp hfield]
      exact hattrs
    · simp

theorem fits_declContext (opts : Options) {d : Decl} {names entries depth : Nat}
    (h : (d.context.getD {}).decls.length ≤ entries) :
    ∀ field ∈ declContext ctx opts d, field.Fits names entries (depth + 1) := by
  intro field hfield
  rcases List.mem_cons.mp hfield with rfl | hfield
  · split
    · simp
    · next ids hkept =>
      have hlength := (ctx.keptChildren_sublist opts hkept).length_le
      simp (disch := omega)
  · rw [List.mem_singleton.mp hfield]
    simp
    grind [Bool.toNat_le]

theorem fits_declaredType {d : Decl} {names entries depth : Nat} :
    ∀ field ∈ declaredType ctx d, field.Fits names entries (depth + 1) := by
  intro field hfield
  rcases List.mem_cons.mp hfield with rfl | hfield
  · split
    · simp
    · split <;> simp
  · rw [List.mem_singleton.mp hfield]
    simp

theorem cost_declLevel_le (opts : Options) (node : NodeRef) {d : Decl}
    (hname : (nameOf d).components.length ≤ ctx.nameBound) {level : DeclKind}
    (hlevel : level ∈ NodeKind.lineage d.kind) : ∀ field ∈ declLevel ctx opts node d level,
      field.cost ≤ factor 7 * (ctx.declShare d * ctx.nameBound) := by
  have hshare : (1 + ctx.declEntries d) * ctx.nameBound ≤ ctx.declShare d * ctx.nameBound :=
    Nat.mul_le_mul_right _ (Nat.le_add_right _ _)
  have hfits : ∀ {l : Layout}, l.Fits ctx.nameBound (ctx.declEntries d) 7 →
      l.cost ≤ factor 7 * (ctx.declShare d * ctx.nameBound) := fun h =>
    Nat.le_trans (cost_of_fits ctx h) (Nat.mul_le_mul_left _ hshare)
  have hchildren : (d.context.getD {}).decls.length ≤ ctx.declEntries d := by
    rw [Context.declEntries]
    omega
  have hentries : d.payload.entries ≤ ctx.declEntries d := Nat.le_add_left _ _
  have hcontext : ∀ field ∈ declContext ctx opts d,
      field.cost ≤ factor 7 * (ctx.declShare d * ctx.nameBound) := fun field hfield =>
    hfits (fits_declContext ctx opts hchildren field hfield)
  have hpayload := fun level => hfits (fits_declPayload ctx hentries level)
  intro field hfield
  unfold declLevel at hfield
  split at hfield
  · rw [List.mem_singleton.mp hfield]
    have hinfo := Nat.le_trans (cost_declInfo_le ctx node d) (Nat.mul_le_mul_left _ hshare)
    exact le_factor_of_le (by decide) hinfo
  · rw [List.mem_singleton.mp hfield]
    exact hfits (fits_declName ctx hname)
  · exact hfits (fits_declaredType ctx field hfield)
  · rw [List.mem_singleton.mp hfield]
    exact hfits (fits_qualType ctx _)
  iterate 4 exact hcontext field hfield
  · rcases List.mem_append.mp hfield with hfield | hfield
    · exact hcontext field hfield
    · have hunit : d.kind = .translationUnit :=
        (Context.translationUnit_mem_lineage d.kind).mp ⟨_, hlevel, rfl⟩
      have hlist : 1 + ctx.typeVolume ≤ ctx.declShare d * ctx.nameBound := by
        have hpos := Nat.le_mul_of_pos_right (ctx.declShare d) (nameBound_pos ctx)
        rw [Context.declShare, if_pos hunit] at hpos ⊢
        omega
      rw [List.mem_singleton.mp hfield]
      have htypes := Nat.le_trans (cost_typeList_le ctx) (Nat.mul_le_mul_left _ hlist)
      exact le_factor_of_le (by decide) htypes
  iterate 2
    rcases List.mem_append.mp hfield with hfield | hfield
    · exact hcontext field hfield
    · rw [List.mem_singleton.mp hfield]
      exact hpayload _
  · split at hfield
    · cases hfield
    · rw [List.mem_singleton.mp hfield]
      exact hpayload level

theorem cost_declNode_le (opts : Options) (node : NodeRef) {d : Decl}
    (hname : (nameOf d).components.length ≤ ctx.nameBound) :
    (declNode ctx opts node d).cost ≤ factor 8 * (ctx.declShare d * ctx.nameBound) := by
  have hsize : NodeKind.tupleSize d.kind ≤ 12 := by
    cases d.kind <;> decide
  have hnode := cost_node_le hsize (length_declLevel ctx opts node d) fun a ha =>
    cost_declLevel_le ctx opts node hname ha
  have hshare : 0 < ctx.declShare d := by
    rw [Context.declShare]
    omega
  refine le_factor_succ (Nat.mul_pos hshare (nameBound_pos ctx)) ?_
  rw [declNode]
  omega

end Nodes

end Layout

/-! ### Sites -/

/-- The layout of a node costs its share of the volume, where whatever is defined inside it counts as
absent. -/
theorem Site.cost_layout_le (ctx : Context) (opts : Options) {v : Visit} {s : Site}
    (hs : v.marks = [.define s]) :
    (s.layout ctx opts).cost ≤ Layout.factor 8 * (ctx.share v * ctx.nameBound) := by
  have hshare : ctx.share v ≤ ctx.share v * ctx.nameBound :=
    Nat.le_mul_of_pos_right _ (Layout.nameBound_pos ctx)
  cases v with
  | decl id =>
    cases hs
    cases hd : ctx.decl? id with
    | none =>
      simp only [layout, hd, Layout.cost_leaf]
      exact Nat.zero_le _
    | some d =>
      simp only [layout, Context.share, hd]
      exact Layout.cost_declNode_le ctx opts _ (Layout.length_nameOf_le ctx hd)
  | stmt id =>
    cases hs
    cases hs : ctx.stmt? id with
    | none =>
      simp only [layout, hs, Layout.cost_leaf]
      exact Nat.zero_le _
    | some s =>
      simp only [layout, Context.share, hs]
      exact Layout.le_factor_of_le (by decide) (Layout.cost_stmtNode_le ctx _ s)
  | type id => cases hs
  | comment id =>
    cases hs
    cases hc : ctx.comment? id with
    | none =>
      simp only [layout, hc, Layout.cost_leaf]
      exact Nat.zero_le _
    | some c =>
      simp only [layout, Context.share, hc] at hshare ⊢
      have hnode := Layout.cost_commentNode_le ctx (.comment id) c
      have hmul := Nat.mul_le_mul_left (Layout.factor 4) hshare
      exact Layout.le_factor_of_le (by decide) (Nat.le_trans hnode hmul)

end SyntaxExport
