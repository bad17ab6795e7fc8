import SyntaxExport.Kind.Family
import SyntaxExport.Pass

/-!
# Declared sizes

A layout is well formed if every container declares the number of its parts, every tuple under a tag
has the size of the kind with that tag, and no slot stands for a rejection by the writer. The
declared sizes are worked out apart from the parts, so this is shown function by function; the main
statement, `Site.wellFormed_layout`, says that whatever a site defines has a well-formed layout, in
any context.

The tokens of a well-formed layout are those of its document (`Layout.tokensAppend_eq`).
-/

namespace SyntaxExport

/-- The tag and the size of the tuple of a node, or of the pair that names a base class. -/
def IsForm (tag : String) (size : Nat) : Prop :=
  (∃ (f : Family) (k : f.Kind),
    NodeKind.isAbstract k = false ∧ NodeKind.tag k = tag ∧ NodeKind.tupleSize k = size)
  ∨ (tag = "BaseClass" ∧ size = 2)

theorem isForm_of_kind {f : Family} {k : f.Kind} (h : NodeKind.isAbstract k = false) :
    IsForm (NodeKind.tag k) (NodeKind.tupleSize k) :=
  .inl ⟨f, k, h, rfl, rfl⟩

theorem isForm_baseClass : IsForm "BaseClass" 2 :=
  .inr ⟨rfl, rfl⟩

/-! ### Trees of nodes -/

namespace Tree

variable {α : Type}

/-- The number of elements of a tuple. -/
def tupleSize? : Tree α → Option Nat
  | .tuple ts => some ts.length
  | _ => none

mutual

/-- Every leaf is as `p` says, and every tuple under a tag has the form of a node. -/
def Formed (p : α → Prop) : Tree α → Prop
  | .leaf a => p a
  | .object fs => FieldsFormed p fs
  | .array ts => ItemsFormed p ts
  | .tuple ts => ItemsFormed p ts
  | .variant tag t => t.Formed p ∧ ∀ size ∈ t.tupleSize?, IsForm tag size

/-- The fields of an object are formed. -/
def FieldsFormed (p : α → Prop) : List (String × Tree α) → Prop
  | [] => True
  | (_, t) :: fs => t.Formed p ∧ FieldsFormed p fs

/-- The elements of an array or tuple are formed. -/
def ItemsFormed (p : α → Prop) : List (Tree α) → Prop
  | [] => True
  | t :: ts => t.Formed p ∧ ItemsFormed p ts

end

variable {p : α → Prop} {a : α}

theorem mem_of_mem_close {rest : List (Token α)} (h : .leaf a ∈ .close :: rest) : .leaf a ∈ rest :=
  (List.mem_cons.mp h).resolve_left nofun

mutual

/-- A leaf among the tokens of a formed tree is as `p` says. -/
theorem leaf_of_tokensAppend : ∀ {t : Tree α} {rest : List (Token α)}, t.Formed p →
    .leaf a ∈ t.tokensAppend rest → p a ∨ .leaf a ∈ rest
  | .leaf _, _, ht, h => by
    rcases List.mem_cons.mp h with heq | hrest
    · cases heq
      exact .inl ht
    · exact .inr hrest
  | .object _, _, ht, h => by
    have hinside := (List.mem_cons.mp h).resolve_left nofun
    exact (leaf_of_fieldTokens ht hinside).imp_right mem_of_mem_close
  | .array _, _, ht, h => by
    have hinside := (List.mem_cons.mp h).resolve_left nofun
    exact (leaf_of_itemTokens ht hinside).imp_right mem_of_mem_close
  | .tuple _, _, ht, h => by
    have hinside := (List.mem_cons.mp h).resolve_left nofun
    exact (leaf_of_itemTokens ht hinside).imp_right mem_of_mem_close
  | .variant _ _, _, ht, h => by
    have hinside := (List.mem_cons.mp h).resolve_left nofun
    exact (leaf_of_tokensAppend ht.1 hinside).imp_right mem_of_mem_close

theorem leaf_of_fieldTokens : ∀ {fs : List (String × Tree α)} {rest : List (Token α)},
    FieldsFormed p fs → .leaf a ∈ fieldTokens fs rest → p a ∨ .leaf a ∈ rest
  | [], _, _, h => .inr h
  | _ :: _, _, hfs, h => by
    have hfield := (List.mem_cons.mp h).resolve_left nofun
    rcases leaf_of_tokensAppend hfs.1 hfield with ha | hrest
    · exact .inl ha
    · exact leaf_of_fieldTokens hfs.2 hrest

theorem leaf_of_itemTokens : ∀ {ts : List (Tree α)} {rest : List (Token α)},
    ItemsFormed p ts → .leaf a ∈ itemTokens ts rest → p a ∨ .leaf a ∈ rest
  | [], _, _, h => .inr h
  | _ :: _, _, hts, h => by
    rcases leaf_of_tokensAppend hts.1 h with ha | hrest
    · exact .inl ha
    · exact leaf_of_itemTokens hts.2 hrest

end

theorem Formed.of_mem {t : Tree α} (ht : t.Formed p) (h : .leaf a ∈ t.tokens) : p a :=
  (leaf_of_tokensAppend ht h).resolve_right List.not_mem_nil

end Tree

/-- A slot that is no rejection by the writer. -/
def Item.IsNoRejection (a : Item) : Prop :=
  ∀ e, a ≠ .fault (.write e)

/-! ### Layouts with true sizes -/

namespace Layout

/-- The declared size of a tuple. -/
def tupleSize? : Layout → Option Nat
  | .tuple size _ => some size
  | _ => none

mutual

/-- Every container declares its size, every tuple under a tag has the form of a node, and no slot
is a rejection by the writer. -/
def WellFormed : Layout → Prop
  | .leaf a => a.IsNoRejection
  | .object size fs => size = fs.length ∧ FieldsWellFormed fs
  | .array size ls => size = ls.length ∧ ItemsWellFormed ls
  | .tuple size ls => size = ls.length ∧ ItemsWellFormed ls
  | .variant tag l => l.WellFormed ∧ ∀ size ∈ l.tupleSize?, IsForm tag size

/-- Every field is well formed. -/
def FieldsWellFormed : Fields → Prop
  | [] => True
  | (_, l) :: fs => l.WellFormed ∧ FieldsWellFormed fs

/-- Every element is well formed. -/
def ItemsWellFormed : List Layout → Prop
  | [] => True
  | l :: ls => l.WellFormed ∧ ItemsWellFormed ls

end

/-! ### Tokens of well-formed layouts -/

@[simp] theorem length_fieldTrees (fs : Fields) : (fieldTrees fs).length = fs.length := by
  induction fs with
  | nil => rfl
  | cons f fs ih => simp [fieldTrees, ih]

@[simp] theorem length_itemTrees (ls : List Layout) : (itemTrees ls).length = ls.length := by
  induction ls with
  | nil => rfl
  | cons l ls ih => simp [itemTrees, ih]

mutual

/-- A well-formed layout has the tokens of its document. -/
theorem tokensAppend_eq : ∀ (l : Layout) (rest : List (Token Item)), l.WellFormed →
    l.tokensAppend rest = l.tree.tokensAppend rest
  | .leaf _, _, _ => rfl
  | .object size fs, rest, h => by
    obtain ⟨hsize, hfs⟩ := h
    simp only [tokensAppend, tree, Tree.tokensAppend, length_fieldTrees]
    rw [hsize, fieldTokens_eq fs _ hfs]
  | .array size ls, rest, h => by
    obtain ⟨hsize, hls⟩ := h
    simp only [tokensAppend, tree, Tree.tokensAppend, length_itemTrees]
    rw [hsize, itemTokens_eq ls _ hls]
  | .tuple size ls, rest, h => by
    obtain ⟨hsize, hls⟩ := h
    simp only [tokensAppend, tree, Tree.tokensAppend, length_itemTrees]
    rw [hsize, itemTokens_eq ls _ hls]
  | .variant tag l, rest, h => by
    simp only [tokensAppend, tree, Tree.tokensAppend]
    rw [tokensAppend_eq l _ h.1]

theorem fieldTokens_eq : ∀ (fs : Fields) (rest : List (Token Item)), FieldsWellFormed fs →
    fieldTokens fs rest = Tree.fieldTokens (fieldTrees fs) rest
  | [], _, _ => rfl
  | (name, l) :: fs, rest, h => by
    obtain ⟨hl, hfs⟩ := h
    simp only [fieldTokens, fieldTrees, Tree.fieldTokens]
    rw [fieldTokens_eq fs _ hfs, tokensAppend_eq l _ hl]

theorem itemTokens_eq : ∀ (ls : List Layout) (rest : List (Token Item)), ItemsWellFormed ls →
    itemTokens ls rest = Tree.itemTokens (itemTrees ls) rest
  | [], _, _ => rfl
  | l :: ls, rest, h => by
    obtain ⟨hl, hls⟩ := h
    simp only [itemTokens, itemTrees, Tree.itemTokens]
    rw [itemTokens_eq ls _ hls, tokensAppend_eq l _ hl]

end

theorem tokens_eq {l : Layout} (h : l.WellFormed) : l.tokens = l.tree.tokens :=
  tokensAppend_eq l [] h

theorem tupleSize?_tree {l : Layout} (h : l.WellFormed) : l.tree.tupleSize? = l.tupleSize? := by
  cases l with
  | tuple size ls =>
    obtain ⟨hsize, -⟩ := h
    rw [tree, Tree.tupleSize?, length_itemTrees, ← hsize]
    rfl
  | leaf | object | array | variant => rfl

mutual

/-- The document of a well-formed layout is a tree of nodes. -/
theorem formed_tree : ∀ l : Layout, l.WellFormed → l.tree.Formed Item.IsNoRejection
  | .leaf _, h => h
  | .object _ fs, h => formed_fieldTrees fs h.2
  | .array _ ls, h => formed_itemTrees ls h.2
  | .tuple _ ls, h => formed_itemTrees ls h.2
  | .variant tag l, h => by
    obtain ⟨hl, htag⟩ := h
    refine ⟨formed_tree l hl, ?_⟩
    rw [tupleSize?_tree hl]
    exact htag

theorem formed_fieldTrees : ∀ fs : Fields, FieldsWellFormed fs →
    Tree.FieldsFormed Item.IsNoRejection (fieldTrees fs)
  | [], _ => trivial
  | (_, l) :: fs, h => ⟨formed_tree l h.1, formed_fieldTrees fs h.2⟩

theorem formed_itemTrees : ∀ ls : List Layout, ItemsWellFormed ls →
    Tree.ItemsFormed Item.IsNoRejection (itemTrees ls)
  | [], _ => trivial
  | l :: ls, h => ⟨formed_tree l h.1, formed_itemTrees ls h.2⟩

end

/-! ### Fields and lists -/

@[simp] theorem wellFormed_leaf (a : Item) :
    (Layout.leaf a).WellFormed ↔ ∀ e, a ≠ .fault (.write e) := by
  rw [WellFormed, Item.IsNoRejection]

@[simp] theorem wellFormed_object (size : Nat) (fs : Fields) :
    (Layout.object size fs).WellFormed ↔ size = fs.length ∧ FieldsWellFormed fs := by
  rw [WellFormed]

@[simp] theorem wellFormed_tuple (size : Nat) (ls : List Layout) :
    (Layout.tuple size ls).WellFormed ↔ size = ls.length ∧ ItemsWellFormed ls := by
  rw [WellFormed]

@[simp] theorem wellFormed_array (size : Nat) (ls : List Layout) :
    (Layout.array size ls).WellFormed ↔ size = ls.length ∧ ItemsWellFormed ls := by
  rw [WellFormed]

@[simp] theorem wellFormed_variant (tag : String) (l : Layout) :
    (Layout.variant tag l).WellFormed
      ↔ l.WellFormed ∧ ∀ size ∈ l.tupleSize?, IsForm tag size := by
  rw [WellFormed]

@[simp] theorem tupleSize?_leaf (a : Item) : (Layout.leaf a).tupleSize? = none := rfl

@[simp] theorem tupleSize?_object (size : Nat) (fs : Fields) :
    (Layout.object size fs).tupleSize? = none := rfl

@[simp] theorem tupleSize?_tuple (size : Nat) (ls : List Layout) :
    (Layout.tuple size ls).tupleSize? = some size := rfl

@[simp] theorem fieldsWellFormed_nil : FieldsWellFormed [] := trivial

@[simp] theorem fieldsWellFormed_cons (name : String) (l : Layout) (fs : Fields) :
    FieldsWellFormed ((name, l) :: fs) ↔ l.WellFormed ∧ FieldsWellFormed fs := by
  rw [FieldsWellFormed]

@[simp] theorem fieldsWellFormed_append (fs gs : Fields) :
    FieldsWellFormed (fs ++ gs) ↔ FieldsWellFormed fs ∧ FieldsWellFormed gs := by
  induction fs with
  | nil => simp
  | cons f fs ih =>
    obtain ⟨name, l⟩ := f
    simp [ih, and_assoc]

@[simp] theorem itemsWellFormed_iff (ls : List Layout) :
    ItemsWellFormed ls ↔ ∀ l ∈ ls, l.WellFormed := by
  induction ls with
  | nil => simp [ItemsWellFormed]
  | cons l ls ih => simp [ItemsWellFormed, ih]

@[simp] theorem wellFormed_list {α : Type} (f : α → Layout) (as : List α) :
    (list f as).WellFormed ↔ ∀ a ∈ as, (f a).WellFormed := by
  simp [list]

@[simp] theorem fieldsWellFormed_flag (name : String) (b : Bool) :
    FieldsWellFormed (flag name b) := by
  cases b <;> simp [flag]

@[simp] theorem fieldsWellFormed_optional {α : Type} (name : String) (a : Option α)
    (f : α → Layout) : FieldsWellFormed (optional name a f) ↔ ∀ x ∈ a, (f x).WellFormed := by
  cases a <;> simp [optional]

@[simp] theorem fieldsWellFormed_nonempty {α : Type} (name : String) (as : List α)
    (f : α → Layout) : FieldsWellFormed (nonempty name as f) ↔ ∀ a ∈ as, (f a).WellFormed := by
  cases as <;> simp [nonempty]

@[simp] theorem fieldsWellFormed_ite (b : Bool) (name : String) (l : Layout) :
    FieldsWellFormed (if b then [(name, l)] else []) ↔ (b = true → l.WellFormed) := by
  cases b <;> simp

/-! ### Counting the fields that are present -/

@[simp] theorem count_nil : count [] = 0 := rfl

@[simp] theorem count_cons (b : Bool) (bs : List Bool) : count (b :: bs) = b.toNat + count bs := by
  cases b <;> simp [count, Nat.add_comm]

@[simp] theorem length_flag (name : String) (b : Bool) : (flag name b).length = b.toNat := by
  cases b <;> rfl

@[simp] theorem length_optional {α : Type} (name : String) (a : Option α) (f : α → Layout) :
    (optional name a f).length = a.isSome.toNat := by
  cases a <;> rfl

@[simp] theorem length_nonempty {α : Type} (name : String) (as : List α) (f : α → Layout) :
    (nonempty name as f).length = (!as.isEmpty).toNat := by
  cases as <;> rfl

@[simp] theorem length_ite_field (b : Bool) (name : String) (l : Layout) :
    (if b then [(name, l)] else [] : Fields).length = b.toNat := by
  cases b <;> rfl

/-! ### Parts that nodes of several families share -/

@[simp] theorem wellFormed_range (r : SourceRange) : (range r).WellFormed := by
  simp [range]

@[simp] theorem wellFormed_qualType (ctx : Context) (q : QualType) :
    (qualType ctx q).WellFormed := by
  unfold qualType
  split
  · simp
  · split
    · simp
    · simp
    · simp; omega

@[simp] theorem tupleSize?_qualType (ctx : Context) (q : QualType) :
    (qualType ctx q).tupleSize? = none := by
  unfold qualType
  split
  · rfl
  · split <;> rfl

@[simp] theorem wellFormed_declName (n : DeclName) : (declName n).WellFormed := by
  simp [declName]

@[simp] theorem wellFormed_declDigest (ctx : Context) (id : DeclId) (d : Decl) :
    (declDigest ctx id d).WellFormed := by
  simp [declDigest]; omega

@[simp] theorem wellFormed_declRef (ctx : Context) (id : DeclId) :
    (declRef ctx id).WellFormed := by
  unfold declRef
  split <;> simp

@[simp] theorem tupleSize?_declRef (ctx : Context) (id : DeclId) :
    (declRef ctx id).tupleSize? = none := by
  unfold declRef
  split <;> rfl

@[simp] theorem wellFormed_attr (ctx : Context) (id : AttrId) : (attr ctx id).WellFormed := by
  unfold attr
  split
  · simp
  · simp [attrNode]; omega

@[simp] theorem wellFormed_nestedNameSpecifier (ctx : Context) (s : NestedNameSpecifier) :
    (nestedNameSpecifier ctx s).WellFormed := by
  simp [nestedNameSpecifier]; omega

@[simp] theorem wellFormed_ctorInitializer (ctx : Context) (i : CtorInitializer) :
    (ctorInitializer ctx i).WellFormed := by
  have hsubject : (initializerSubject ctx i.subject).WellFormed := by
    cases i.subject <;> simp [initializerSubject, isForm_baseClass]
  simp [ctorInitializer, hsubject]; omega

theorem foldl_add_ownFieldCount {κ : Type} [NodeKind κ] {level : κ → List Layout} :
    ∀ {levels : List κ} (n : Nat), (∀ l ∈ levels, (level l).length = NodeKind.ownFieldCount l) →
      levels.foldl (fun n l => n + NodeKind.ownFieldCount l) n = n + (levels.flatMap level).length
  | [], _, _ => rfl
  | l :: levels, n, h => by
    have hl := h l List.mem_cons_self
    rw [List.foldl_cons, foldl_add_ownFieldCount _ fun m hm => h m (List.mem_cons_of_mem l hm),
      List.flatMap_cons, List.length_append]
    omega

/-- A tuple with the fields of every level has the size of the kind, if every level has the number
of fields that the kinds declare for it. -/
theorem length_flatMap_lineage {κ : Type} [NodeKind κ] (k : κ) {level : κ → List Layout}
    (h : ∀ l ∈ NodeKind.lineage k, (level l).length = NodeKind.ownFieldCount l) :
    ((NodeKind.lineage k).flatMap level).length = NodeKind.tupleSize k := by
  rw [NodeKind.tupleSize, foldl_add_ownFieldCount 0 h, Nat.zero_add]

theorem wellFormed_node {κ : Type} [NodeKind κ] (k : κ) {level : κ → List Layout}
    (hform : NodeKind.isAbstract k = false → IsForm (NodeKind.tag k) (NodeKind.tupleSize k))
    (hlength : ∀ l, (level l).length = NodeKind.ownFieldCount l)
    (hlevel : ∀ l, ∀ field ∈ level l, field.WellFormed) : (node k level).WellFormed := by
  unfold node
  split
  · simp
  · next hk =>
    rw [wellFormed_variant, wellFormed_tuple, itemsWellFormed_iff]
    refine ⟨⟨(length_flatMap_lineage k fun l _ => hlength l).symm, fun field hfield => ?_⟩, ?_⟩
    · obtain ⟨l, -, hl⟩ := List.mem_flatMap.mp hfield
      exact hlevel l field hl
    · rintro size ⟨⟩
      exact hform (Bool.eq_false_iff.mpr hk)

/-! ### Types -/

theorem wellFormed_typePayload (t : TypeNode) (level : TypeKind) :
    (typePayload t level).WellFormed := by
  unfold typePayload
  split <;> split <;> simp [functionParams, objCObjectInfo, Nat.add_comm]

theorem wellFormed_typeLevel (id : TypeId) (t : TypeNode) (level : TypeKind) :
    ∀ field ∈ typeLevel id t level, field.WellFormed := by
  intro field hfield
  have hinfo : (typeInfo id t).WellFormed := by
    simp [typeInfo]; omega
  unfold typeLevel at hfield
  split at hfield
  · rw [List.mem_singleton.mp hfield]
    exact hinfo
  · split at hfield
    · exact absurd hfield List.not_mem_nil
    · rw [List.mem_singleton.mp hfield]
      exact wellFormed_typePayload t level

theorem wellFormed_typeNode (id : TypeId) (t : TypeNode) : (typeNode id t).WellFormed :=
  wellFormed_node t.kind (isForm_of_kind (f := .type)) (length_typeLevel id t)
    (wellFormed_typeLevel id t)

theorem wellFormed_noType : noType.WellFormed := by
  refine ⟨⟨by decide, by simp⟩, ?_⟩
  rintro size ⟨⟩
  exact isForm_of_kind (f := .type) rfl

@[simp] theorem wellFormed_typeList (ctx : Context) : (typeList ctx).WellFormed := by
  simp only [typeList, wellFormed_array, itemsWellFormed_iff]
  refine ⟨by simp, fun l hl => ?_⟩
  rcases List.mem_append.mp hl with hl | hl
  · obtain ⟨i, hi, rfl⟩ := List.mem_mapIdx.mp hl
    exact wellFormed_typeNode _ _
  · rw [List.mem_singleton.mp hl]
    exact wellFormed_noType

/-! ### Comments -/

theorem wellFormed_commentPayload (c : Comment) (level : CommentKind) :
    (commentPayload c level).WellFormed := by
  unfold commentPayload
  split <;> split <;>
    simp [inlineCommand, htmlStartTag, htmlAttribute, blockCommand, paramCommand, tParamCommand] <;>
    omega

theorem wellFormed_commentLevel (ctx : Context) (node : NodeRef) (c : Comment)
    (level : CommentKind) : ∀ field ∈ commentLevel ctx node c level, field.WellFormed := by
  intro field hfield
  have hchildren : (commentChildren ctx c).WellFormed := by
    unfold commentChildren
    split <;> simp
  unfold commentLevel at hfield
  split at hfield
  · rcases List.mem_cons.mp hfield with rfl | hfield
    · simp [commentInfo]
    · rw [List.mem_singleton.mp hfield]
      exact hchildren
  · split at hfield
    · exact absurd hfield List.not_mem_nil
    · rw [List.mem_singleton.mp hfield]
      exact wellFormed_commentPayload c level

theorem wellFormed_commentNode (ctx : Context) (node : NodeRef) (c : Comment) :
    (commentNode ctx node c).WellFormed :=
  wellFormed_node c.kind (isForm_of_kind (f := .comment)) (length_commentLevel ctx node c)
    (wellFormed_commentLevel ctx node c)

/-! ### Statements -/

@[simp] theorem wellFormed_castInfo (c : CastInfo) : (castInfo c).WellFormed := by
  simp [castInfo, castBase, Nat.add_comm]

@[simp] theorem wellFormed_overloadInfo (ctx : Context) (o : OverloadInfo) :
    (overloadInfo ctx o).WellFormed := by
  simp [overloadInfo, Nat.add_comm]

@[simp] theorem wellFormed_memberInfo (ctx : Context) (isArrow : Bool) (id : DeclId) :
    (memberInfo ctx isArrow id).WellFormed := by
  unfold memberInfo
  split <;> simp [Nat.add_comm]

@[simp] theorem wellFormed_messageInfo (ctx : Context) (selector : String) (method : Option DeclId)
    (target : Receiver) : (messageInfo ctx selector method target).WellFormed := by
  have hreceiver : (receiver ctx target).WellFormed := by
    cases target <;> simp [receiver]
  simp [messageInfo, hreceiver, -bne_iff_ne]; omega

@[simp] theorem wellFormed_propertyRefInfo (ctx : Context) (p : PropertyRef) :
    (propertyRefInfo ctx p).WellFormed := by
  have htarget : (propertyTarget ctx p.target).WellFormed := by
    cases p.target <;> simp [propertyTarget, accessorNames]
  simp [propertyRefInfo, htarget]; omega

theorem wellFormed_stmtPayload (ctx : Context) (s : Stmt) (level : StmtKind) :
    (stmtPayload ctx s level).WellFormed := by
  unfold stmtPayload
  -- one case for each level and payload; the third split is for the parts of a cast
  split <;> split <;> (try split) <;>
    simp [labelRef, lookupInfo, ivarRef, integerLiteral, unaryInfo, constructInfo, cleanupsInfo,
      newInfo, subscriptRefInfo, accessorNames] <;>
    omega

theorem wellFormed_stmtLevel (ctx : Context) (node : NodeRef) (s : Stmt) (level : StmtKind) :
    ∀ field ∈ stmtLevel ctx node s level, field.WellFormed := by
  intro field hfield
  have hchildren : (stmtChildren ctx s).WellFormed := by
    unfold stmtChildren
    split <;> simp
  unfold stmtLevel at hfield
  split at hfield
  · rcases List.mem_cons.mp hfield with rfl | hfield
    · simp [stmtInfo]
    · rw [List.mem_singleton.mp hfield]
      exact hchildren
  · split at hfield
    · rw [List.mem_singleton.mp hfield]
      simp [exprInfo, -bne_iff_ne]; omega
    · rw [List.mem_singleton.mp hfield]
      simp
  · split at hfield
    · exact absurd hfield List.not_mem_nil
    · rw [List.mem_singleton.mp hfield]
      exact wellFormed_stmtPayload ctx s level

theorem wellFormed_stmtNode (ctx : Context) (node : NodeRef) (s : Stmt) :
    (stmtNode ctx node s).WellFormed :=
  wellFormed_node s.kind (isForm_of_kind (f := .stmt)) (length_stmtLevel ctx node s)
    (wellFormed_stmtLevel ctx node s)

/-! ### Declarations -/

theorem wellFormed_declInfo (ctx : Context) (node : NodeRef) (d : Decl) :
    (declInfo ctx node d).WellFormed := by
  have hlink : ∀ r, (redeclaration r).WellFormed := by
    intro r
    cases r <;> simp [redeclaration]
  simp [declInfo, hlink]; omega

theorem keptChildren_ne_write {ctx : Context} {opts : Options} {e : ExportError} :
    ∀ {ids : List DeclId}, keptChildren ctx opts ids = .error e → ∀ w, e ≠ .write w
  | [], h, _ => nomatch h
  | id :: ids, h, w => by
    unfold keptChildren at h
    split at h
    · obtain rfl := Except.error.inj h
      simp
    · split at h
      · obtain rfl := Except.error.inj h
        simp
      · split at h
        · next hrest =>
          obtain rfl := Except.error.inj h
          exact keptChildren_ne_write hrest w
        · cases h

theorem wellFormed_declContext (ctx : Context) (opts : Options) (d : Decl) :
    ∀ field ∈ declContext ctx opts d, field.WellFormed := by
  intro field hfield
  rcases List.mem_cons.mp hfield with rfl | hfield
  · split
    · next hkept => simpa using keptChildren_ne_write hkept
    · simp
  · rw [List.mem_singleton.mp hfield]
    simp

theorem wellFormed_declaredType (ctx : Context) (d : Decl) :
    ∀ field ∈ declaredType ctx d, field.WellFormed := by
  intro field hfield
  rcases List.mem_cons.mp hfield with rfl | hfield
  · split
    · simp
    · split <;> simp
  · rw [List.mem_singleton.mp hfield]
    simp

@[simp] theorem wellFormed_cxxRecordInfo (info : RecordInfo) :
    (cxxRecordInfo info).WellFormed := by
  unfold cxxRecordInfo
  split <;> simp

@[simp] theorem wellFormed_functionInfo (ctx : Context) (modulePrivate : Bool)
    (info : FunctionInfo) : (functionInfo ctx modulePrivate info).WellFormed := by
  simp [functionInfo]

@[simp] theorem wellFormed_ivarInfo (info : FieldInfo) : (ivarInfo info).WellFormed := by
  simp [ivarInfo, -bne_iff_ne]

@[simp] theorem wellFormed_varInfo (modulePrivate : Bool) (info : VarInfo) :
    (varInfo modulePrivate info).WellFormed := by
  simp [varInfo, -bne_iff_ne]

@[simp] theorem wellFormed_usingDirectiveInfo (ctx : Context) (info : UsingDirectiveInfo) :
    (usingDirectiveInfo ctx info).WellFormed := by
  simp [usingDirectiveInfo]; omega

@[simp] theorem wellFormed_namespaceAliasInfo (ctx : Context) (info : NamespaceAliasInfo) :
    (namespaceAliasInfo ctx info).WellFormed := by
  simp [namespaceAliasInfo]; omega

@[simp] theorem wellFormed_objCMethodInfo (ctx : Context) (info : ObjCMethodInfo) :
    (objCMethodInfo ctx info).WellFormed := by
  simp [objCMethodInfo]; omega

@[simp] theorem wellFormed_objCPropertyInfo (ctx : Context) (info : ObjCPropertyInfo) :
    (objCPropertyInfo ctx info).WellFormed := by
  have hattribute : ∀ a, (propertyAttribute ctx a).WellFormed := by
    intro a
    cases a <;> simp [propertyAttribute]
  simp [objCPropertyInfo, hattribute, -bne_iff_ne]; omega

@[simp] theorem wellFormed_blockInfo (ctx : Context) (info : BlockInfo) :
    (blockInfo ctx info).WellFormed := by
  have hcapture : ∀ c, (blockCapture ctx c).WellFormed := by
    intro c
    simp [blockCapture]
  simp [blockInfo, hcapture]

theorem wellFormed_declPayload (ctx : Context) (d : Decl) (level : DeclKind) :
    (declPayload ctx d level).WellFormed := by
  unfold declPayload
  split <;> (try split) <;>
    simp [enumInfo, recordInfo, fieldInfo, namespaceInfo, objCCategoryInfo, objCCategoryImplInfo,
      objCInterfaceInfo, objCImplementationInfo, objCPropertyImplInfo]
  omega

theorem wellFormed_declLevel (ctx : Context) (opts : Options) (node : NodeRef) (d : Decl)
    (level : DeclKind) : ∀ field ∈ declLevel ctx opts node d level, field.WellFormed := by
  have hcontext := wellFormed_declContext ctx opts d
  have hpayload := wellFormed_declPayload ctx d
  unfold declLevel
  split
  · simpa using wellFormed_declInfo ctx node d
  · simp
  · exact wellFormed_declaredType ctx d
  · simp
  iterate 4 exact hcontext
  · simpa [or_imp, forall_and] using hcontext
  iterate 2 simpa [or_imp, forall_and, hpayload] using hcontext
  · split
    · simp
    · simpa using hpayload level

theorem wellFormed_declNode (ctx : Context) (opts : Options) (node : NodeRef) (d : Decl) :
    (declNode ctx opts node d).WellFormed :=
  wellFormed_node d.kind (isForm_of_kind (f := .decl)) (length_declLevel ctx opts node d)
    (wellFormed_declLevel ctx opts node d)

end Layout

/-! ### Sites -/

/-- Whatever a site defines declares its true sizes, in any context. -/
theorem Site.wellFormed_layout (ctx : Context) (opts : Options) (s : Site) :
    (s.layout ctx opts).WellFormed := by
  unfold Site.layout
  split
  · exact Layout.wellFormed_declNode ..
  · split
    · simp
    · exact Layout.wellFormed_declNode ..
  · exact Layout.wellFormed_stmtNode ..
  · split
    · simp
    · exact Layout.wellFormed_stmtNode ..
  · exact Layout.wellFormed_commentNode ..
  · split
    · simp
    · exact Layout.wellFormed_commentNode ..

theorem Layout.tupleSize?_node {κ : Type} [NodeKind κ] (k : κ) (level : κ → List Layout) :
    (node k level).tupleSize? = none := by
  unfold node
  split <;> rfl

/-- What a site defines is no bare tuple. -/
theorem Site.tupleSize?_layout (ctx : Context) (opts : Options) (s : Site) :
    (s.layout ctx opts).tupleSize? = none := by
  unfold Site.layout
  split
  · exact Layout.tupleSize?_node ..
  · split
    · rfl
    · exact Layout.tupleSize?_node ..
  · exact Layout.tupleSize?_node ..
  · split
    · rfl
    · exact Layout.tupleSize?_node ..
  · exact Layout.tupleSize?_node ..
  · split
    · rfl
    · exact Layout.tupleSize?_node ..

end SyntaxExport
