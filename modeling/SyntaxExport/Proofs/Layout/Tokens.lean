import SyntaxExport.Proofs.Layout.WellFormed

/-!
# Tokens of layouts

The tokens of a container are those of its parts, one part after the other, between the token that
opens it and the one that closes it. So the leaves of a container are those of its parts
(`Layout.Leaves`).
-/

namespace SyntaxExport.Layout

/-- The tokens of a field. -/
def ofField (f : String × Layout) : List (Token Item) :=
  .tag f.1 :: f.2.tree.tokens

theorem fieldTokens_eq_flatMap : ∀ (fs : Fields) (rest : List (Token Item)),
    Tree.fieldTokens (fieldTrees fs) rest = fs.flatMap ofField ++ rest
  | [], _ => rfl
  | (name, l) :: fs, rest => by
    rw [fieldTrees, Tree.fieldTokens, fieldTokens_eq_flatMap fs rest, Tree.tokensAppend_eq_append,
      List.flatMap_cons, List.append_assoc]
    rfl

theorem itemTokens_eq_flatMap : ∀ (ls : List Layout) (rest : List (Token Item)),
    Tree.itemTokens (itemTrees ls) rest = (ls.flatMap fun l => l.tree.tokens) ++ rest
  | [], _ => rfl
  | l :: ls, rest => by
    rw [itemTrees, Tree.itemTokens, itemTokens_eq_flatMap ls rest, Tree.tokensAppend_eq_append,
      List.flatMap_cons, List.append_assoc]

theorem tokens_object (n : Nat) (fs : Fields) : (object n fs).tree.tokens
    = .container .object fs.length :: (fs.flatMap ofField ++ [.close]) := by
  show .container .object (fieldTrees fs).length :: Tree.fieldTokens (fieldTrees fs) [.close] = _
  rw [length_fieldTrees, fieldTokens_eq_flatMap]

theorem tokens_array (n : Nat) (ls : List Layout) : (array n ls).tree.tokens
    = .container .array ls.length :: ((ls.flatMap fun l => l.tree.tokens) ++ [.close]) := by
  show .container .array (itemTrees ls).length :: Tree.itemTokens (itemTrees ls) [.close] = _
  rw [length_itemTrees, itemTokens_eq_flatMap]

theorem tokens_tuple (n : Nat) (ls : List Layout) : (tuple n ls).tree.tokens
    = .container .tuple ls.length :: ((ls.flatMap fun l => l.tree.tokens) ++ [.close]) := by
  show .container .tuple (itemTrees ls).length :: Tree.itemTokens (itemTrees ls) [.close] = _
  rw [length_itemTrees, itemTokens_eq_flatMap]

theorem tokens_variant (tag : String) (l : Layout) : (variant tag l).tree.tokens
    = .variant tag :: (l.tree.tokens ++ [.close]) := by
  show .variant tag :: l.tree.tokensAppend [.close] = _
  rw [Tree.tokensAppend_eq_append]

/-! ### Leaves -/

/-- Every leaf is as `p` says. -/
def Leaves (p : Item → Prop) (l : Layout) : Prop :=
  ∀ a, .leaf a ∈ l.tree.tokens → p a

/-- Every leaf of every field is as `p` says. -/
def FieldLeaves (p : Item → Prop) (fs : Fields) : Prop :=
  ∀ f ∈ fs, f.2.Leaves p

variable {p : Item → Prop}

@[simp] theorem leaves_leaf (a : Item) : (Layout.leaf a).Leaves p ↔ p a := by
  constructor
  · exact fun h => h a (List.mem_singleton.mpr rfl)
  · intro h b hb
    cases List.mem_singleton.mp hb
    exact h

/-- The leaves of a container are those of its parts. -/
theorem leaf_mem_parts {α : Type} {f : α → List (Token Item)} (shape : Shape) (n : Nat)
    (as : List α) (a : Item) : .leaf a ∈ .container shape n :: (as.flatMap f ++ [.close])
      ↔ ∃ x ∈ as, .leaf a ∈ f x := by
  simp

@[simp] theorem leaves_object (n : Nat) (fs : Fields) :
    (object n fs).Leaves p ↔ FieldLeaves p fs := by
  have hfield : ∀ (f : String × Layout) (a : Item),
      .leaf a ∈ ofField f ↔ .leaf a ∈ f.2.tree.tokens := by
    simp [ofField]
  rw [Leaves, tokens_object]
  simp only [leaf_mem_parts, hfield]
  exact ⟨fun h f hf a ha => h a ⟨f, hf, ha⟩, fun h a ⟨f, hf, ha⟩ => h f hf a ha⟩

@[simp] theorem leaves_array (n : Nat) (ls : List Layout) :
    (array n ls).Leaves p ↔ ∀ l ∈ ls, l.Leaves p := by
  rw [Leaves, tokens_array]
  simp only [leaf_mem_parts]
  exact ⟨fun h l hl a ha => h a ⟨l, hl, ha⟩, fun h a ⟨l, hl, ha⟩ => h l hl a ha⟩

@[simp] theorem leaves_tuple (n : Nat) (ls : List Layout) :
    (tuple n ls).Leaves p ↔ ∀ l ∈ ls, l.Leaves p := by
  rw [Leaves, tokens_tuple]
  simp only [leaf_mem_parts]
  exact ⟨fun h l hl a ha => h a ⟨l, hl, ha⟩, fun h a ⟨l, hl, ha⟩ => h l hl a ha⟩

@[simp] theorem leaves_variant (tag : String) (l : Layout) :
    (variant tag l).Leaves p ↔ l.Leaves p := by
  simp [Leaves, tokens_variant]

@[simp] theorem fieldLeaves_nil : FieldLeaves p [] :=
  nofun

@[simp] theorem fieldLeaves_cons (name : String) (l : Layout) (fs : Fields) :
    FieldLeaves p ((name, l) :: fs) ↔ l.Leaves p ∧ FieldLeaves p fs :=
  List.forall_mem_cons

@[simp] theorem fieldLeaves_append (fs gs : Fields) :
    FieldLeaves p (fs ++ gs) ↔ FieldLeaves p fs ∧ FieldLeaves p gs :=
  List.forall_mem_append

@[simp] theorem leaves_list {α : Type} (f : α → Layout) (as : List α) :
    (list f as).Leaves p ↔ ∀ a ∈ as, (f a).Leaves p := by
  simp [list]

@[simp] theorem fieldLeaves_flag (name : String) (b : Bool) :
    FieldLeaves p (flag name b) ↔ (b = true → p (.scalar (.boolean true))) := by
  cases b <;> simp [flag]

@[simp] theorem fieldLeaves_optional {α : Type} (name : String) (a : Option α) (f : α → Layout) :
    FieldLeaves p (optional name a f) ↔ ∀ x ∈ a, (f x).Leaves p := by
  cases a <;> simp [optional]

@[simp] theorem fieldLeaves_nonempty {α : Type} (name : String) (as : List α) (f : α → Layout) :
    FieldLeaves p (nonempty name as f) ↔ ∀ a ∈ as, (f a).Leaves p := by
  cases as <;> simp [nonempty]

@[simp] theorem fieldLeaves_ite (q : Prop) [Decidable q] (fs gs : Fields) :
    FieldLeaves p (if q then fs else gs) ↔ if q then FieldLeaves p fs else FieldLeaves p gs := by
  split <;> rfl

/-- The leaves of a node of a concrete kind are those of the fields of its levels. -/
theorem leaves_node {κ : Type} [NodeKind κ] (k : κ) (level : κ → List Layout) :
    (node k level).Leaves p ↔ if NodeKind.isAbstract k then
      p (.fault (.abstractKind (NodeKind.family κ) (NodeKind.tag k)))
      else ∀ l ∈ NodeKind.lineage k, ∀ field ∈ level l, field.Leaves p := by
  rw [node]
  split
  · exact leaves_leaf _
  · rw [leaves_variant, leaves_tuple]
    simp only [List.mem_flatMap]
    exact ⟨fun h l hl field hfield => h field ⟨l, hl, hfield⟩,
      fun h field ⟨l, hl, hfield⟩ => h l hl field hfield⟩

/-! ### Absent nodes -/

theorem declNode_sentinel (ctx : Context) (opts : Options) (n : NodeRef) :
    declNode ctx opts n sentinelDecl = .variant (NodeKind.tag DeclKind.empty)
      (.tuple (NodeKind.tupleSize DeclKind.empty) [.object 3 [("pointer", identity n),
        ("source_range", range {}), ("attributes", .array 0 [])]]) := rfl

theorem stmtNode_sentinel (ctx : Context) (n : NodeRef) :
    stmtNode ctx n sentinelStmt = .variant (NodeKind.tag StmtKind.nullStmt)
      (.tuple (NodeKind.tupleSize StmtKind.nullStmt)
        [.object 2 [("pointer", identity n), ("source_range", range {})], .array 0 []]) := rfl

theorem commentNode_sentinel (ctx : Context) (n : NodeRef) :
    commentNode ctx n sentinelComment = .variant (NodeKind.tag CommentKind.noComment)
      (.tuple (NodeKind.tupleSize CommentKind.noComment)
        [.object 2 [("pointer", identity n), ("source_range", range {})], .array 0 []]) := rfl

end SyntaxExport.Layout
