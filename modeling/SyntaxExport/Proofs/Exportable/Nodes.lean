import SyntaxExport.Proofs.Exportable.Layout

/-!
# Levels of complete nodes

A node is complete if its kind is concrete and every level of the kind finds what it needs, and that is
exactly when its layout has no fault (`Site.allowed_layout`).
-/

namespace SyntaxExport

variable {ctx : Context} {opts : Options} {faulty : Prop}

/-! ### What a level needs -/

/-- What a level of the kind of a declaration needs. -/
@[mk_iff] structure Decl.CompleteAt (ctx : Context) (d : Decl) (level : DeclKind) : Prop where
  attrs : level = .decl → ∀ a ∈ d.attrs, (ctx.attr? a).isSome
  children : level ∈ Layout.contextLevels →
    ∀ c ∈ (d.context.getD {}).decls, (ctx.decl? c).isSome
  declaredType : level = .type → ∀ t ∈ d.typeForDecl, (ctx.type? t).isSome
  valueType : level = .value → ∀ q ∈ d.valueType, ctx.Spells q
  types : level = .translationUnit → ∀ t ∈ ctx.types, t.Complete
  payload : ∀ accepts ∈ level.accepts?, accepts d.payload ∧ ctx.ResolvesAll d.payload.mentions

theorem Decl.complete_iff (d : Decl) :
    d.Complete ctx ∧ (d.kind = .translationUnit → ∀ t ∈ ctx.types, t.Complete)
      ↔ NodeKind.isAbstract d.kind = false
        ∧ ∀ level ∈ NodeKind.lineage d.kind, d.CompleteAt ctx level := by
  constructor
  · rintro ⟨hcomplete, htypes⟩
    refine ⟨hcomplete.concrete, fun level hlevel => ?_⟩
    exact {
      payload := hcomplete.payload level hlevel
      attrs := fun _ => hcomplete.attrs
      children := fun h =>
        hcomplete.children ((Context.isDeclContext_iff d.kind).mp ⟨level, hlevel, h⟩)
      declaredType := fun h => hcomplete.declaredType (decide_eq_true (h ▸ hlevel))
      valueType := fun h => hcomplete.valueType (decide_eq_true (h ▸ hlevel))
      types := fun h =>
        htypes ((Context.translationUnit_mem_lineage d.kind).mp ⟨level, hlevel, h⟩) }
  · rintro ⟨hconcrete, hlevels⟩
    refine ⟨?_, fun hunit => ?_⟩
    · exact {
        concrete := hconcrete
        payload := fun level hlevel => (hlevels level hlevel).payload
        attrs := (hlevels _ (NodeKind.root_mem_lineage Layout.DeclKind.eq_of_root d.kind)).attrs rfl
        children := fun hcontext => by
          obtain ⟨level, hlevel, h⟩ := (Context.isDeclContext_iff d.kind).mpr hcontext
          exact (hlevels level hlevel).children h
        declaredType := fun h => (hlevels _ (of_decide_eq_true h)).declaredType rfl
        valueType := fun h => (hlevels _ (of_decide_eq_true h)).valueType rfl }
    · obtain ⟨level, hlevel, h⟩ := (Context.translationUnit_mem_lineage d.kind).mpr hunit
      exact (hlevels level hlevel).types h

/-- What a level of the kind of a statement needs. -/
@[mk_iff] structure Stmt.CompleteAt (ctx : Context) (s : Stmt) (level : StmtKind) : Prop where
  payload : ∀ accepts ∈ level.accepts?,
    accepts s.payload ∧ ctx.ResolvesAll (s.payload.mentions level)
  children : level = .stmt → ∀ c, some c ∈ s.children → (ctx.stmt? c).isSome
  expr : level = .expr → ∃ e, s.expr = some e ∧ ctx.Spells e.type

theorem Stmt.complete_iff (s : Stmt) : s.Complete ctx ↔ NodeKind.isAbstract s.kind = false
    ∧ ∀ level ∈ NodeKind.lineage s.kind, s.CompleteAt ctx level := by
  constructor
  · intro h
    refine ⟨h.concrete, fun level hlevel => ?_⟩
    exact {
      payload := h.payload level hlevel
      children := fun _ => h.children
      expr := fun hexpr => h.expr (decide_eq_true (hexpr ▸ hlevel)) }
  · rintro ⟨hconcrete, hlevels⟩
    exact {
      concrete := hconcrete
      payload := fun level hlevel => (hlevels level hlevel).payload
      children := (hlevels _ (NodeKind.root_mem_lineage Layout.StmtKind.eq_of_root s.kind)).children rfl
      expr := fun h => (hlevels _ (of_decide_eq_true h)).expr rfl }

/-- What a level of the kind of a comment needs. -/
@[mk_iff] structure Comment.CompleteAt (ctx : Context) (c : Comment) (level : CommentKind) : Prop where
  payload : ∀ accepts ∈ level.accepts?, accepts c.payload
  children : level = .comment → ∀ i, some i ∈ c.children → (ctx.comment? i).isSome

theorem Comment.complete_iff (c : Comment) : c.Complete ctx ↔ NodeKind.isAbstract c.kind = false
    ∧ ∀ level ∈ NodeKind.lineage c.kind, c.CompleteAt ctx level := by
  constructor
  · intro h
    exact ⟨h.concrete, fun level hlevel => ⟨h.payload level hlevel, fun _ => h.children⟩⟩
  · rintro ⟨hconcrete, hlevels⟩
    exact {
      concrete := hconcrete
      payload := fun level hlevel => (hlevels level hlevel).payload
      children :=
        (hlevels _ (NodeKind.root_mem_lineage Layout.CommentKind.eq_of_root c.kind)).children rfl }

/-! ### The levels that read a payload -/

/-- The levels that have fields besides what they read from a payload. -/
def DeclKind.facetLevels : List DeclKind :=
  [.decl, .named, .type, .value, .captured, .linkageSpec, .objCContainer, .tag, .translationUnit,
   .block, .namespaceDecl, .typedef]

theorem DeclKind.isNone_accepts? {level : DeclKind} (h : level ∉ facetLevels) :
    level.accepts?.isNone ↔ level.ownFieldCount = 0 := by
  cases level <;> first | decide | exact absurd (by decide) h

theorem StmtKind.isNone_accepts? {level : StmtKind} (hstmt : level ≠ .stmt) (hexpr : level ≠ .expr) :
    level.accepts?.isNone ↔ level.ownFieldCount = 0 := by
  cases level <;> first | decide | contradiction

theorem TypeKind.isNone_accepts? {level : TypeKind} (htype : level ≠ .type) :
    level.accepts?.isNone ↔ level.ownFieldCount = 0 := by
  cases level <;> first | decide | contradiction

theorem CommentKind.isNone_accepts? {level : CommentKind} (hcomment : level ≠ .comment) :
    level.accepts?.isNone ↔ level.ownFieldCount = 0 := by
  cases level <;> first | decide | contradiction

namespace Layout

/-- A level that has one field, read from the payload, if it reads a payload. -/
theorem allowed_own {α : Type} {n : Nat} {l : Layout} {reads : Option α} {P : α → Prop}
    (hreads : reads.isNone ↔ n = 0)
    (h : ∀ a, reads = some a → (l.Allowed ctx faulty ↔ faulty ∨ P a)) :
    (∀ field ∈ (if n = 0 then [] else [l]), field.Allowed ctx faulty)
      ↔ faulty ∨ ∀ a ∈ reads, P a := by
  cases reads with
  | none => simp [hreads.mp rfl]
  | some a =>
    have hn : n ≠ 0 := fun hn => by cases hreads.mpr hn
    simp [hn, h a rfl]

/-- A node of a concrete kind needs what the levels of the kind need. -/
theorem allowed_node {κ : Type} [NodeKind κ] {k : κ} {level : κ → List Layout} {P : κ → Prop}
    (h : ∀ l, (∀ field ∈ level l, field.Allowed ctx faulty) ↔ faulty ∨ P l) :
    (node k level).Allowed ctx faulty
      ↔ faulty ∨ NodeKind.isAbstract k = false ∧ ∀ l ∈ NodeKind.lineage k, P l := by
  rw [Allowed, leaves_node]
  cases NodeKind.isAbstract k with
  | true => simp
  | false =>
    simp only [Bool.false_eq_true, if_false, true_and, h]
    exact ⟨fun hall => or_iff_not_imp_left.mpr fun hf l hl => (hall l hl).resolve_left hf,
      fun hall l hl => hall.imp_right fun hP => hP l hl⟩

/-! ### Types -/

theorem allowed_typePayload {t : TypeNode} {level : TypeKind} {accepts : TypePayload → Bool}
    (hlevel : level.accepts? = some accepts) :
    (typePayload t level).Allowed ctx faulty ↔ faulty ∨ accepts t.payload := by
  cases level <;> cases hlevel
  all_goals simp only [typePayload]
  all_goals split
  all_goals simp_all [functionParams, objCObjectInfo]

theorem allowed_typeNode (id : TypeId) (t : TypeNode) :
    (typeNode id t).Allowed ctx faulty ↔ faulty ∨ t.Complete := by
  have hlevel : ∀ level, (∀ field ∈ typeLevel id t level, field.Allowed ctx faulty)
      ↔ faulty ∨ ∀ accepts ∈ level.accepts?, accepts t.payload := by
    intro level
    unfold typeLevel
    split
    · simp [typeInfo, TypeKind.accepts?]
    · next htype =>
      exact allowed_own (TypeKind.isNone_accepts? htype) fun _ h => allowed_typePayload h
  rw [typeNode, allowed_node hlevel]
  exact or_congr_right ⟨fun h => ⟨h.1, h.2⟩, fun h => ⟨h.concrete, h.payload⟩⟩

theorem allowed_typeList :
    (typeList ctx).Allowed ctx faulty ↔ faulty ∨ ∀ t ∈ ctx.types, t.Complete := by
  have hnone : noType.Allowed ctx faulty := by simp [noType]
  have hentries : (∀ l ∈ ctx.types.toList.mapIdx fun i t => typeNode (Id.ofSize i) t,
      l.Allowed ctx faulty) ↔ ∀ t ∈ ctx.types, faulty ∨ t.Complete := by
    constructor
    · intro h t ht
      obtain ⟨i, hi, rfl⟩ := List.getElem_of_mem (Array.mem_toList_iff.mpr ht)
      exact (allowed_typeNode _ _).mp (h _ (List.mem_mapIdx.mpr ⟨i, hi, rfl⟩))
    · intro h l hl
      obtain ⟨i, hi, rfl⟩ := List.mem_mapIdx.mp hl
      exact (allowed_typeNode _ _).mpr (h _ (Array.mem_toList_iff.mp (List.getElem_mem hi)))
  rw [Allowed, typeList, leaves_array, List.forall_mem_append, hentries, List.forall_mem_singleton]
  simp only [hnone, and_true, forall_or_left]

/-! ### Children -/

/-- A layout of children that is a fault where one of them is missing. -/
theorem allowed_children {α : Type} {missing : Option α → Bool} {children : List (Option α)}
    {l : Layout} (hnone : missing none = false)
    (hfault : ∀ a, children.find? missing = some (some a) → (l.Allowed ctx faulty ↔ faulty))
    (hlist : children.find? missing = none → l.Allowed ctx faulty) :
    l.Allowed ctx faulty ↔ faulty ∨ ∀ a, some a ∈ children → missing (some a) = false := by
  cases hfind : children.find? missing with
  | none =>
    have hpresent : ∀ a, some a ∈ children → missing (some a) = false :=
      fun a ha => Bool.eq_false_iff.mpr (List.find?_eq_none.mp hfind _ ha)
    exact iff_of_true (hlist hfind) (.inr hpresent)
  | some child =>
    have hmem := List.mem_of_find?_eq_some hfind
    have hmissing := List.find?_some hfind
    cases child with
    | none => cases hnone.symm.trans hmissing
    | some a =>
      have hnot : ¬ ∀ a, some a ∈ children → missing (some a) = false := by
        intro hpresent
        cases (hpresent a hmem).symm.trans hmissing
      rw [hfault a hfind, or_iff_left hnot]

/-! ### Comments -/

theorem allowed_commentPayload {c : Comment} {level : CommentKind} {accepts : CommentPayload → Bool}
    (hlevel : level.accepts? = some accepts) :
    (commentPayload c level).Allowed ctx faulty ↔ faulty ∨ accepts c.payload := by
  cases level <;> cases hlevel
  all_goals simp only [commentPayload]
  all_goals split
  all_goals simp_all [inlineCommand, htmlStartTag, htmlAttribute, blockCommand, paramCommand,
    tParamCommand]

theorem allowed_commentChildren (c : Comment) :
    (commentChildren ctx c).Allowed ctx faulty
      ↔ faulty ∨ ∀ i, some i ∈ c.children → (ctx.comment? i).isSome := by
  have hchildren : (commentChildren ctx c).Allowed ctx faulty
      ↔ faulty ∨ ∀ i, some i ∈ c.children → isCommentMissing ctx (some i) = false :=
    allowed_children rfl (fun i hfind => by simp [commentChildren, hfind])
      fun hfind => by simp [commentChildren, hfind]
  simpa [isCommentMissing] using hchildren

theorem allowed_commentNode (node : NodeRef) {c : Comment} (hrange : ctx.KnowsRange c.range) :
    (commentNode ctx node c).Allowed ctx faulty ↔ faulty ∨ c.Complete ctx := by
  have hlevel : ∀ level, (∀ field ∈ commentLevel ctx node c level, field.Allowed ctx faulty)
      ↔ faulty ∨ c.CompleteAt ctx level := by
    intro level
    unfold commentLevel
    split
    · simp [Comment.completeAt_iff, CommentKind.accepts?, commentInfo, hrange, allowed_commentChildren]
    · next hother =>
      have hcomment : level ≠ .comment := hother
      simp only [Comment.completeAt_iff, hcomment, false_imp_iff, and_true]
      exact allowed_own (CommentKind.isNone_accepts? hcomment) fun _ h => allowed_commentPayload h
  rw [commentNode, allowed_node hlevel, Comment.complete_iff]

/-! ### Statements -/

theorem allowed_stmtChildren (s : Stmt) :
    (stmtChildren ctx s).Allowed ctx faulty
      ↔ faulty ∨ ∀ i, some i ∈ s.children → (ctx.stmt? i).isSome := by
  have hchildren : (stmtChildren ctx s).Allowed ctx faulty
      ↔ faulty ∨ ∀ i, some i ∈ s.children → isStmtMissing ctx (some i) = false :=
    allowed_children rfl (fun i hfind => by simp [stmtChildren, hfind])
      fun hfind => by simp [stmtChildren, hfind]
  simpa [isStmtMissing] using hchildren

theorem allowed_stmtNode (hattrs : ∀ a ∈ ctx.attrs, ctx.KnowsRange a.range) (node : NodeRef) {s : Stmt}
    (hrange : ctx.KnowsRange s.range) :
    (stmtNode ctx node s).Allowed ctx faulty ↔ faulty ∨ s.Complete ctx := by
  have hlevel : ∀ level, (∀ field ∈ stmtLevel ctx node s level, field.Allowed ctx faulty)
      ↔ faulty ∨ s.CompleteAt ctx level := by
    intro level
    unfold stmtLevel
    split
    · simp [Stmt.completeAt_iff, StmtKind.accepts?, stmtInfo, hrange, allowed_stmtChildren]
    · cases hexpr : s.expr with
      | none => simp [Stmt.completeAt_iff, StmtKind.accepts?, hexpr]
      | some e => simp [Stmt.completeAt_iff, StmtKind.accepts?, hexpr, exprInfo]
    · next hstmt hexpr =>
      have hstmt : level ≠ .stmt := hstmt
      have hexpr : level ≠ .expr := hexpr
      simp only [Stmt.completeAt_iff, hstmt, hexpr, false_imp_iff, and_true]
      exact allowed_own (StmtKind.isNone_accepts? hstmt hexpr) fun _ h => allowed_stmtPayload hattrs s h
  rw [stmtNode, allowed_node hlevel, Stmt.complete_iff]

/-! ### Declarations -/

@[simp] theorem spells_getD_null (q : Option QualType) :
    ctx.Spells (q.getD QualType.null) ↔ ∀ t ∈ q, ctx.Spells t := by
  cases q with
  | none => simp [Context.Spells, QualType.null]
  | some q => simp

theorem allowed_declNode (hknown : ctx.KnowsLocations) (hfilter : ∀ f ∈ opts.filter, f.Decides)
    (node : NodeRef) {d : Decl} (hrange : ctx.KnowsRange d.range)
    (hlocations : ∀ l ∈ d.payload.locations, (ctx.fileName? l.file).isSome) :
    (declNode ctx opts node d).Allowed ctx faulty ↔ faulty
      ∨ d.Complete ctx ∧ (d.kind = .translationUnit → ∀ t ∈ ctx.types, t.Complete) := by
  have hcontext : (∀ field ∈ declContext ctx opts d, field.Allowed ctx faulty)
      ↔ faulty ∨ ∀ c ∈ (d.context.getD {}).decls, (ctx.decl? c).isSome :=
    allowed_declContext hknown hfilter d
  have hlevel : ∀ level, (∀ field ∈ declLevel ctx opts node d level, field.Allowed ctx faulty)
      ↔ faulty ∨ d.CompleteAt ctx level := by
    intro level
    unfold declLevel
    split
    · simp [Decl.completeAt_iff, DeclKind.accepts?, contextLevels,
        allowed_declInfo hknown.attrs hrange]
    · simp [Decl.completeAt_iff, DeclKind.accepts?, contextLevels]
    · simp [Decl.completeAt_iff, DeclKind.accepts?, contextLevels, allowed_declaredType]
    · simp [Decl.completeAt_iff, DeclKind.accepts?, contextLevels]
    -- the four levels that have children and nothing else
    iterate 4
      · simp [Decl.completeAt_iff, DeclKind.accepts?, contextLevels, hcontext]
    · rw [List.forall_mem_append, hcontext, List.forall_mem_singleton, allowed_typeList,
        ← or_and_left]
      simp [Decl.completeAt_iff, DeclKind.accepts?, contextLevels]
    -- the two levels that have children and read a payload
    iterate 2
      · rw [List.forall_mem_append, hcontext, List.forall_mem_singleton,
          allowed_declPayload hlocations rfl, ← or_and_left]
        simp [Decl.completeAt_iff, DeclKind.accepts?, contextLevels]
    · have hfacets : level ∉ contextLevels ∧ level ≠ .decl ∧ level ≠ .type ∧ level ≠ .value
          ∧ level ≠ .translationUnit := by
        simp_all [contextLevels]
      simp only [Decl.completeAt_iff, hfacets, false_imp_iff, true_and]
      by_cases hmem : level ∈ DeclKind.facetLevels
      · -- a type definition has a field that is not read from the payload
        have htypedef : level = .typedef := by simp_all [DeclKind.facetLevels]
        rw [htypedef]
        simp [DeclKind.ownFieldCount, DeclKind.accepts?, declPayload]
      · exact allowed_own (DeclKind.isNone_accepts? hmem) fun _ h => allowed_declPayload hlocations h
  rw [declNode, allowed_node hlevel, Decl.complete_iff]

end Layout

/-! ### Sites -/

/-- The types are complete if the node lists them, as translation units do. -/
def Context.ListsComplete (ctx : Context) : Visit → Prop
  | .decl id => ∀ d, ctx.decl? id = some d → d.kind = .translationUnit → ∀ t ∈ ctx.types, t.Complete
  | _ => True

/-! What is written in place of an absent node is complete. -/

theorem Layout.complete_sentinelDecl : sentinelDecl.Complete ctx := by
  have hlevels : ∀ level ∈ NodeKind.lineage DeclKind.empty, level.accepts?.isNone := by decide
  refine ⟨rfl, fun level hlevel => ?_, nofun, nofun, nofun, nofun⟩
  simp [Option.isNone_iff_eq_none.mp (hlevels level hlevel)]

theorem Layout.complete_sentinelStmt : sentinelStmt.Complete ctx := by
  have hlevels : ∀ level ∈ NodeKind.lineage StmtKind.nullStmt, level.accepts?.isNone := by decide
  refine ⟨rfl, fun level hlevel => ?_, nofun, nofun⟩
  simp [Option.isNone_iff_eq_none.mp (hlevels level hlevel)]

theorem Layout.complete_sentinelComment : sentinelComment.Complete ctx := by
  have hlevels : ∀ level ∈ NodeKind.lineage CommentKind.noComment, level.accepts?.isNone := by decide
  refine ⟨rfl, fun level hlevel => ?_, nofun⟩
  simp [Option.isNone_iff_eq_none.mp (hlevels level hlevel)]

/-- The layout of a site has a fault exactly if the site defines a node that is not complete or lists a
type that is not complete, and the fault is that of a node. -/
theorem Site.allowed_layout (hknown : ctx.KnowsLocations) (hfilter : ∀ f ∈ opts.filter, f.Decides)
    (s : Site) : (s.layout ctx opts).Allowed ctx faulty
      ↔ faulty ∨ ∀ v ∈ s.visit?, ctx.HasComplete v ∧ ctx.ListsComplete v := by
  cases s with
  | decl id =>
    cases id with
    | none =>
      have hunit : Layout.sentinelDecl.kind ≠ .translationUnit := nofun
      have hlocations : ∀ l ∈ Layout.sentinelDecl.payload.locations, (ctx.fileName? l.file).isSome := by
        simp [Layout.sentinelDecl, DeclPayload.locations]
      rw [layout, Layout.allowed_declNode hknown hfilter _ ctx.knowsRange_absent hlocations]
      simp [visit?, hunit, Layout.complete_sentinelDecl]
    | some id =>
      cases hd : ctx.decl? id with
      | none => simp [layout, visit?, Context.HasComplete, hd]
      | some d =>
        obtain ⟨hrange, hlocations⟩ := hknown.decls d (Array.mem_of_getElem? hd)
        simp only [layout, hd]
        rw [Layout.allowed_declNode hknown hfilter _ hrange hlocations]
        simp [visit?, Context.HasComplete, Context.ListsComplete, hd]
  | stmt id =>
    cases id with
    | none =>
      rw [layout, Layout.allowed_stmtNode hknown.attrs _ ctx.knowsRange_absent]
      simp [visit?, Layout.complete_sentinelStmt]
    | some id =>
      cases hs : ctx.stmt? id with
      | none => simp [layout, visit?, Context.HasComplete, hs]
      | some s =>
        simp only [layout, hs]
        rw [Layout.allowed_stmtNode hknown.attrs _ (hknown.stmts s (Array.mem_of_getElem? hs))]
        simp [visit?, Context.HasComplete, Context.ListsComplete, hs]
  | comment id =>
    cases id with
    | none =>
      rw [layout, Layout.allowed_commentNode _ ctx.knowsRange_absent]
      simp [visit?, Layout.complete_sentinelComment]
    | some id =>
      cases hc : ctx.comment? id with
      | none => simp [layout, visit?, Context.HasComplete, hc]
      | some c =>
        simp only [layout, hc]
        rw [Layout.allowed_commentNode _ (hknown.comments c (Array.mem_of_getElem? hc))]
        simp [visit?, Context.HasComplete, Context.ListsComplete, hc]

end SyntaxExport
