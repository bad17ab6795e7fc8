import SyntaxExport.Proofs.Document.Tuples
import SyntaxExport.Proofs.Pass.Balance

/-!
# Tuples of layouts

A layout of a node has one tuple, which has the fields of the levels of its kind. Only a translation
unit has more, those of the types in its list. `Layout.of_mem_tuples` says so of every site.
-/

namespace SyntaxExport

/-- A kind, and the fields that each level adds to a node of that kind. -/
structure Levels where
  {κ : Type}
  [nodeKind : NodeKind κ]
  kind : κ
  fields : κ → List Layout

attribute [instance] Levels.nodeKind

/-- The fields of all levels, the most general first. -/
def Levels.all (x : Levels) : List Layout :=
  (NodeKind.lineage x.kind).flatMap x.fields

/-- The fields of the entry for the absent type. -/
def Layout.noTypeLevel : TypeKind → List Layout
  | .type => [.object 2 [("pointer", identity .null), ("raw", string "")]]
  | _ => []

/-- What the levels of a node give. A type has its place in the arena for a name. -/
inductive Context.Describes (ctx : Context) (opts : Options) : NodeRef → Levels → Prop where
  | decl {id : DeclId} {d : Decl} : ctx.decl? id = some d →
    Describes ctx opts (.decl id) ⟨d.kind, Layout.declLevel ctx opts (.decl id) d⟩
  | noDecl : Describes ctx opts (.sentinel .decl)
    ⟨Layout.sentinelDecl.kind, Layout.declLevel ctx opts (.sentinel .decl) Layout.sentinelDecl⟩
  | stmt {id : StmtId} {s : Stmt} : ctx.stmt? id = some s →
    Describes ctx opts (.stmt id) ⟨s.kind, Layout.stmtLevel ctx (.stmt id) s⟩
  | noStmt : Describes ctx opts (.sentinel .stmt)
    ⟨Layout.sentinelStmt.kind, Layout.stmtLevel ctx (.sentinel .stmt) Layout.sentinelStmt⟩
  | comment {id : CommentId} {c : Comment} : ctx.comment? id = some c →
    Describes ctx opts (.comment id) ⟨c.kind, Layout.commentLevel ctx (.comment id) c⟩
  | noComment : Describes ctx opts (.sentinel .comment) ⟨Layout.sentinelComment.kind,
    Layout.commentLevel ctx (.sentinel .comment) Layout.sentinelComment⟩
  | type {i : Nat} {t : TypeNode} : ctx.types[i]? = some t →
    Describes ctx opts (.type (Id.ofSize i)) ⟨t.kind, Layout.typeLevel (Id.ofSize i) t⟩
  | noType : Describes ctx opts .null ⟨TypeKind.noType, Layout.noTypeLevel⟩

namespace Layout

theorem itemTuples_eq (ls : List Layout) :
    Tree.itemTuples (itemTrees ls) = ls.flatMap fun l => l.tree.tuples := by
  induction ls with
  | nil => rfl
  | cons l ls ih =>
    rw [itemTrees, Tree.itemTuples, ih]
    rfl

/-- Marks none of which is a tuple. -/
def Bare (ms : List (Mark Item)) : Prop :=
  ∀ m ∈ ms, m.pointer? = none

theorem bare_nil : Bare [] :=
  List.forall_mem_nil _

theorem Bare.append {ms ms' : List (Mark Item)} (h : Bare ms) (h' : Bare ms') : Bare (ms ++ ms') := by
  intro m hm
  rcases List.mem_append.mp hm with hm | hm
  · exact h m hm
  · exact h' m hm

theorem bare_flatMap {β : Type} {f : β → List (Mark Item)} {l : List β} (h : ∀ b ∈ l, Bare (f b)) :
    Bare (l.flatMap f) := by
  intro m hm
  obtain ⟨b, hb, hm⟩ := List.mem_flatMap.mp hm
  exact h b hb m hm

/-- Parts without tuples in their outline have none. -/
theorem tuples_of_outline {ls : List Layout} {owner : Option Item}
    (hplaced : Tree.Placed (ls.flatMap (outline owner))) (h : Bare (ls.flatMap (outline owner))) :
    (ls.flatMap fun l => l.tree.tuples) = [] := by
  rw [← outlineItems_eq] at hplaced h
  have hpointers := Tree.pointers_itemTuples hplaced
  rw [List.filterMap_eq_nil_iff.mpr h, List.map_nil, List.map_eq_nil_iff] at hpointers
  rw [← itemTuples_eq, hpointers]

/-! ### Nodes -/

section Node

variable {κ : Type} [NodeKind κ] {n : NodeRef} {k : κ} {level : κ → List Layout}

theorem tuples_node (h : BeginsWith n ((NodeKind.lineage k).flatMap level)) :
    (node k level).tree.tuples = if NodeKind.isAbstract k then []
      else itemTrees ((NodeKind.lineage k).flatMap level)
        :: ((NodeKind.lineage k).flatMap level).flatMap fun l => l.tree.tuples := by
  obtain ⟨size, fs, rest, hfields⟩ := h
  unfold node
  split
  · rfl
  · rw [tree, tree, Tree.tuples, Tree.tuples, itemTuples_eq, hfields]
    rfl

/-- A level without tuples in its outline has none. -/
theorem tuples_level (h : BeginsWith n ((NodeKind.lineage k).flatMap level))
    (hplaced : Tree.Placed (outline none (node k level))) (hk : NodeKind.isAbstract k = false)
    {l : κ} (hl : l ∈ NodeKind.lineage k)
    (hmarks : Bare ((level l).flatMap (outline (some (.identity n))))) :
    ((level l).flatMap fun field => field.tree.tuples) = [] := by
  refine tuples_of_outline (fun m hm => hplaced m ?_) hmarks
  rw [outline_node none h, hk, if_neg Bool.false_ne_true]
  exact List.mem_cons_of_mem _ (List.mem_flatMap.mpr ⟨l, hl, hm⟩)

theorem pointer?_node (h : BeginsWith n ((NodeKind.lineage k).flatMap level)) :
    Tree.pointer? (itemTrees ((NodeKind.lineage k).flatMap level)) = some (.identity n) := by
  obtain ⟨size, fs, rest, hfields⟩ := h
  rw [hfields]
  rfl

end Node

/-! ### Levels -/

section Marks

variable (owner : Option Item) (ctx : Context)

theorem bare_typeLevel (id : TypeId) (t : TypeNode) (level : TypeKind) :
    Bare ((typeLevel id t level).flatMap (outline owner)) := by
  rw [outline_typeLevel]
  split <;> simp [Bare, Mark.pointer?]

theorem bare_commentLevel (n : NodeRef) (c : Comment) (level : CommentKind) :
    Bare ((commentLevel ctx n c level).flatMap (outline owner)) := by
  have hchildren : Bare (commentChildMarks ctx c) := by
    unfold commentChildMarks
    split <;> simp [Bare, Mark.define, Mark.pointer?]
  rw [outline_commentLevel]
  split
  · simpa [Bare, Mark.range, Mark.pointer?] using hchildren
  · exact bare_nil

theorem bare_attrs (attrs : List AttrId) : Bare (attrs.flatMap (attrMarks ctx)) := by
  refine bare_flatMap fun id _ => ?_
  unfold attrMarks
  split <;> simp [Bare, Mark.range, Mark.pointer?]

theorem bare_stmtMarks (p : StmtPayload) (level : StmtKind) : Bare (stmtMarks ctx p level) := by
  unfold stmtMarks
  split
  all_goals try split
  all_goals first
    | exact bare_nil
    | exact bare_attrs ctx _
    | simp [Bare, Mark.define, Mark.pointer?]

theorem bare_stmtLevel (n : NodeRef) (s : Stmt) (level : StmtKind) :
    Bare ((stmtLevel ctx n s level).flatMap (outline owner)) := by
  have hchildren : Bare (stmtChildMarks ctx s) := by
    unfold stmtChildMarks
    split <;> simp [Bare, Mark.define, Mark.pointer?]
  rw [outline_stmtLevel]
  refine Bare.append ?_ (bare_stmtMarks ctx s.payload level)
  split
  · simpa [Bare, Mark.range, Mark.pointer?] using hchildren
  · exact bare_nil

/-- Types are defined in the list of their translation unit only. -/
theorem family_ne_type_of_definitions {p : DeclPayload} {v : Visit} (hv : v ∈ p.definitions) :
    v.family ≠ .type := by
  have hstmts : ∀ {ss : List (Option StmtId)}, v ∈ Visit.stmts ss → v.family ≠ .type := by
    intro ss hv
    obtain ⟨s, -, hs⟩ := List.mem_filterMap.mp hv
    obtain ⟨id, -, rfl⟩ := Option.map_eq_some_iff.mp hs
    nofun
  have hdecls : ∀ {ds : List DeclId}, v ∈ ds.map Visit.decl → v.family ≠ .type := by
    intro ds hv
    obtain ⟨d, -, rfl⟩ := List.mem_map.mp hv
    nofun
  cases p <;> simp only [DeclPayload.definitions, List.mem_append, List.not_mem_nil] at hv
  case enumConstant | field | var | objCImplementation => exact hstmts hv
  case function => rcases hv with ((hv | hv) | hv) | hv <;> first | exact hdecls hv | exact hstmts hv
  case objCMethod => rcases hv with hv | hv <;> first | exact hdecls hv | exact hstmts hv
  case block => rcases hv with (hv | hv) | hv <;> first | exact hdecls hv | exact hstmts hv

theorem bare_marks {v : Visit} (h : v.family ≠ .type) : Bare v.marks := by
  cases v with
  | type id => exact absurd rfl h
  | decl | stmt | comment => simp [Bare, Visit.marks, Mark.define, Mark.pointer?]

theorem bare_declInfo (n : NodeRef) (d : Decl) : Bare (outline owner (declInfo ctx n d)) := by
  rw [outline_declInfo]
  have hattrs : Bare (.head (.identity n) :: .range (some (.identity n)) d.range
      :: d.attrs.flatMap (attrMarks ctx)) := by
    simpa [Bare, Mark.range, Mark.pointer?] using bare_attrs ctx d.attrs
  exact hattrs.append (by simp [Bare, Mark.define, Mark.pointer?])

theorem bare_childMarks (opts : Options) (d : Decl) : Bare (childMarks ctx opts d) := by
  unfold childMarks
  split
  · exact bare_nil
  · refine bare_flatMap fun v hv => bare_marks ?_
    obtain ⟨id, -, rfl⟩ := List.mem_map.mp hv
    nofun

theorem bare_payload (d : Decl) (level : DeclKind) : Bare (d.payload.marks owner level) := by
  refine Bare.append (bare_flatMap fun v hv => bare_marks ?_) ?_
  · unfold DeclPayload.definitionsAt at hv
    split at hv
    · exact family_ne_type_of_definitions hv
    · cases hv
  · intro m hm
    obtain ⟨x, -, rfl⟩ := List.mem_map.mp hm
    rfl

/-- No level but that of translation units has tuples. -/
theorem bare_declLevel (opts : Options) (n : NodeRef) (d : Decl) {level : DeclKind}
    (h : level ≠ .translationUnit) : Bare ((declLevel ctx opts n d level).flatMap (outline owner)) := by
  rw [outline_declLevel, declMarks, if_neg h, List.append_nil]
  refine Bare.append ?_ (Bare.append ?_ (bare_payload owner d level))
  · split
    · exact bare_declInfo owner ctx n d
    · exact bare_nil
  · split
    · exact bare_childMarks ctx opts d
    · exact bare_nil

end Marks

/-! ### Sites -/

section Sites

variable {ctx : Context} {opts : Options} {ts : List (Tree Item)}

/-- The tuple has the fields of all levels of a node of the context. -/
def IsTuple (ctx : Context) (opts : Options) (ts : List (Tree Item)) : Prop :=
  ∃ n x, ctx.Describes opts n x ∧ Tree.pointer? ts = some (.identity n) ∧ ts = itemTrees x.all

section Node

variable {κ : Type} [NodeKind κ] {n : NodeRef} {k : κ} {level : κ → List Layout}

/-- A tuple of a node is the one of the node itself, or stands in one of its levels. -/
theorem of_mem_tuples_node (hdescribes : ctx.Describes opts n ⟨k, level⟩)
    (hbegins : BeginsWith n ((NodeKind.lineage k).flatMap level))
    (h : ts ∈ (node k level).tree.tuples) : IsTuple ctx opts ts ∨ NodeKind.isAbstract k = false ∧
      ∃ l ∈ NodeKind.lineage k, ts ∈ (level l).flatMap fun field => field.tree.tuples := by
  rw [tuples_node hbegins] at h
  split at h
  · cases h
  · next hk =>
    rcases List.mem_cons.mp h with rfl | h
    · exact .inl ⟨n, _, hdescribes, pointer?_node hbegins, rfl⟩
    · rw [List.flatMap_assoc, List.mem_flatMap] at h
      exact .inr ⟨by simpa using hk, h⟩

/-- A node whose levels have no tuples in their outlines has its own one only. -/
theorem isTuple_node (hdescribes : ctx.Describes opts n ⟨k, level⟩)
    (hbegins : BeginsWith n ((NodeKind.lineage k).flatMap level))
    (hplaced : Tree.Placed (outline none (node k level)))
    (hbare : ∀ l, Bare ((level l).flatMap (outline (some (.identity n)))))
    (h : ts ∈ (node k level).tree.tuples) : IsTuple ctx opts ts := by
  rcases of_mem_tuples_node hdescribes hbegins h with h | ⟨hk, l, hl, h⟩
  · exact h
  · rw [tuples_level hbegins hplaced hk hl (hbare l)] at h
    cases h

end Node

theorem isTuple_typeNode {i : Nat} {t : TypeNode} (ht : ctx.types[i]? = some t)
    (h : ts ∈ (typeNode (Id.ofSize i) t).tree.tuples) : IsTuple ctx opts ts := by
  have hplaced : Tree.Placed (outline none (typeNode (Id.ofSize i) t)) := by
    rw [outline_typeNode]
    split
    · exact List.forall_mem_nil _
    · simp [Tree.Placed, Visit.marks, Mark.IsPlaced]
  exact isTuple_node (.type ht) (beginsWith_lineage TypeKind.eq_of_root t.kind ⟨_, _, _, rfl⟩)
    hplaced (bare_typeLevel _ _ t) h

/-- The tuples of the type list are those of the types and of the absent type. -/
theorem isTuple_typeList (h : ts ∈ (typeList ctx).tree.tuples) : IsTuple ctx opts ts := by
  rw [typeList, tree, Tree.tuples, itemTuples_eq, List.flatMap_append, List.mem_append] at h
  rcases h with h | h
  · obtain ⟨l, hl, h⟩ := List.mem_flatMap.mp h
    obtain ⟨i, hi, rfl⟩ := List.mem_mapIdx.mp hl
    refine isTuple_typeNode ?_ h
    rw [← Array.getElem?_toList, List.getElem?_eq_getElem hi]
  · rw [List.flatMap_singleton] at h
    obtain rfl := List.mem_singleton.mp h
    exact ⟨.null, _, .noType, rfl, rfl⟩

theorem isTuple_declNode {n : NodeRef} {d : Decl}
    (hdescribes : ctx.Describes opts n ⟨d.kind, declLevel ctx opts n d⟩)
    (hplaced : Tree.Placed (outline none (declNode ctx opts n d)))
    (h : ts ∈ (declNode ctx opts n d).tree.tuples) : IsTuple ctx opts ts := by
  have hbegins := beginsWith_decl ctx opts n d
  rcases of_mem_tuples_node hdescribes hbegins h with h | ⟨hk, l, hl, h⟩
  · exact h
  by_cases hunit : l = .translationUnit
  · -- the children of a translation unit come first, and its types after them
    subst hunit
    rw [declLevel, List.flatMap_append, List.flatMap_singleton, List.mem_append] at h
    have hchildren : ((declContext ctx opts d).flatMap fun field => field.tree.tuples) = [] := by
      refine @tuples_of_outline _ none ?_ ?_
      · rw [outline_declContext]
        exact (Settled.childMarks opts d).1
      · rw [outline_declContext]
        exact bare_childMarks ctx opts d
    rw [hchildren] at h
    exact isTuple_typeList (h.resolve_left List.not_mem_nil)
  · rw [tuples_level hbegins hplaced hk hl (bare_declLevel _ ctx opts n d hunit)] at h
    cases h

/-- Every tuple of a site has the fields of a node of the context. -/
theorem isTuple_layout {s : Site} (h : ts ∈ (s.layout ctx opts).tree.tuples) :
    IsTuple ctx opts ts := by
  have hplaced : Tree.Placed (outline none (s.layout ctx opts)) := (Settled.layout opts s).1
  unfold Site.layout at h hplaced
  split at h
  · exact isTuple_declNode .noDecl hplaced h
  · next id =>
    cases hd : ctx.decl? id with
    | none =>
      simp only [hd] at h
      cases h
    | some d =>
      simp only [hd] at h hplaced
      exact isTuple_declNode (.decl hd) hplaced h
  · exact isTuple_node .noStmt (beginsWith_stmt ctx _ _) hplaced (bare_stmtLevel _ ctx _ _) h
  · next id =>
    cases hs : ctx.stmt? id with
    | none =>
      simp only [hs] at h
      cases h
    | some s =>
      simp only [hs] at h hplaced
      exact isTuple_node (.stmt hs) (beginsWith_stmt ctx _ _) hplaced (bare_stmtLevel _ ctx _ _) h
  · exact isTuple_node .noComment (beginsWith_comment ctx _ _) hplaced (bare_commentLevel _ ctx _ _) h
  · next id =>
    cases hc : ctx.comment? id with
    | none =>
      simp only [hc] at h
      cases h
    | some c =>
      simp only [hc] at h hplaced
      exact isTuple_node (.comment hc) (beginsWith_comment ctx _ _) hplaced
        (bare_commentLevel _ ctx _ _) h

end Sites

end Layout

end SyntaxExport
