import SyntaxExport.Proofs.Builder.Nodes

/-!
# Layouts of built nodes

Every level of the kind of a built node finds the payload and the facets that it reads, and what it
mentions or defines is in its arena. So the layouts of a built context are sound
(`Context.Built.isSound_layout`), under every filter that can tell of a declaration in a known file
whether to keep it.
-/

namespace SyntaxExport

namespace Layout

@[simp] theorem isSound_define_decl {ctx : Context} {id : DeclId} :
    (Item.define (.decl (some id))).IsSound ctx ↔ ctx.Has (.decl id) := by
  simp [Item.IsSound, Site.IsPresent, Site.visit?]

@[simp] theorem isSound_define_stmt {ctx : Context} {id : Option StmtId} :
    (Item.define (.stmt id)).IsSound ctx ↔ ∀ i ∈ id, ctx.Has (.stmt i) := by
  simp [Item.IsSound, Site.IsPresent, Site.visit?]

variable {ctx : Context} {opts : Options}

/-! ### Mentions -/

theorem isSound_qualType (h : ctx.Built) {q : QualType} (hq : ctx.HasType q) :
    (qualType ctx q).IsSound ctx := by
  cases htype : q.type with
  | none => simp [qualType, missingType?, Context.spelling, Context.desugaredSpelling, htype]
  | some t =>
    obtain ⟨node, hnode⟩ := (hq t htype).exists_type
    simp [qualType, missingType?, Context.spelling, Context.desugaredSpelling, htype, hnode,
      (h.of_type? hnode).desugared]

@[simp] theorem isSound_declName (n : DeclName) : (declName n).IsSound ctx := by
  simp [declName]

theorem isSound_declRef (h : ctx.Built) {id : DeclId} (hid : ctx.Has (.decl id)) :
    (declRef ctx id).IsSound ctx := by
  obtain ⟨d, hd⟩ := hid.exists_decl
  have htype : ∀ q, d.valueType = some q → (qualType ctx q).IsSound ctx :=
    fun q hq => isSound_qualType h ((h.of_decl? hd).valueType q hq)
  rw [declRef, hd]
  simp +contextual [declDigest, htype]

/-! ### Levels of declarations -/

theorem isSound_declInfo {d : Decl} (node : NodeRef) (hrange : ctx.KnowsRange d.range)
    (hattrs : d.attrs = []) (hcomment : d.fullComment = none) :
    (declInfo ctx node d).IsSound ctx := by
  have hredeclaration : ∀ r : Redeclaration, (redeclaration r).IsSound ctx := by
    rintro (id | id) <;> simp [redeclaration]
  simp [declInfo, hrange, hattrs, hcomment, hredeclaration]

theorem isSound_declContext (h : ctx.Built) (hfilter : ∀ f ∈ opts.filter, f.Decides) {d : Decl}
    (hchildren : ∀ id ∈ (d.context.getD {}).decls, ctx.Has (.decl id)) :
    ∀ l ∈ declContext ctx opts d, l.IsSound ctx := by
  have hranges : ∀ d ∈ ctx.decls, ctx.KnowsRange d.range := fun d hd => (h.decls d hd).range
  rcases keptChildren_cases hranges hfilter (d.context.getD {}).decls with
    ⟨kept, hkept, -⟩ | ⟨id, hid, hnone, -⟩
  · have hhas : ∀ id ∈ kept, ctx.Has (.decl id) := fun id hid =>
      hchildren id ((ctx.mem_keptChildren opts hkept).mp hid).1
    simpa [declContext, hkept] using hhas
  · obtain ⟨child, hchild⟩ := (hchildren id hid).exists_decl
    rw [hnone] at hchild
    cases hchild

theorem isSound_declaredType {d : Decl} (htype : ∀ t ∈ d.typeForDecl, ctx.Has (.type t)) :
    ∀ l ∈ declaredType ctx d, l.IsSound ctx := by
  cases ht : d.typeForDecl with
  | none => simp [declaredType, ht]
  | some t =>
    obtain ⟨node, hnode⟩ := (htype t ht).exists_type
    simp [declaredType, ht, hnode]

/-! ### Types -/

theorem isSound_typeNode {t : TypeNode} (id : TypeId) (h : t.Built) :
    (typeNode id t).IsSound ctx := by
  obtain ⟨hshape, hdesugared⟩ := h
  have hinfo : (typeInfo id t).IsSound ctx := by simp [typeInfo, hdesugared]
  rw [typeNode]
  generalize hkind : t.kind = k at hshape
  generalize hpayload : t.payload = p at hshape
  cases hshape with
  | builtin kind =>
    refine isSound_node [typeInfo id t, typePayload t .builtin] rfl rfl ?_
    simp [hinfo, typePayload, hpayload]
  | pointer pointee =>
    refine isSound_node [typeInfo id t, typePayload t .pointer] rfl rfl ?_
    simp [hinfo, typePayload, hpayload, TypePayload.child?]
  | record decl =>
    refine isSound_node [typeInfo id t, typePayload t .tag] rfl rfl ?_
    simp [hinfo, typePayload, hpayload]
  | function result params =>
    refine isSound_node [typeInfo id t, typePayload t .function, typePayload t .functionProto]
      rfl rfl ?_
    simp [hinfo, typePayload, hpayload, functionParams]

/-- Every type of the list is sound. -/
theorem isSound_typeList (h : ctx.Built) : (typeList ctx).IsSound ctx := by
  have hnoType : noType.IsSound ctx := by simp [noType]
  simp only [typeList, leaves_array, List.forall_mem_append, List.forall_mem_singleton]
  refine ⟨fun l hl => ?_, hnoType⟩
  obtain ⟨i, hi, rfl⟩ := List.mem_mapIdx.mp hl
  exact isSound_typeNode _ (h.types _ (Array.mem_toList_iff.mp (List.getElem_mem hi)))

/-! ### Declarations -/

theorem isSound_varInfo (modulePrivate : Bool) (info : VarInfo)
    (h : ∀ v ∈ (DeclPayload.var info).definitions, ctx.Has v) :
    (varInfo modulePrivate info).IsSound ctx := by
  have hinit : ∀ s, info.init = some s → ctx.Has (.stmt s) := by
    simpa [DeclPayload.definitions, Visit.stmts] using h
  simpa [varInfo] using hinit

theorem isSound_functionInfo (modulePrivate : Bool) (params : List DeclId) (body : Option StmtId)
    (h : ∀ v ∈ (DeclPayload.function { params := params, body := body }).definitions, ctx.Has v) :
    (functionInfo ctx modulePrivate { params := params, body := body }).IsSound ctx := by
  have hboth : (∀ p ∈ params, ctx.Has (.decl p)) ∧ ∀ s ∈ body, ctx.Has (.stmt s) := by
    simpa [DeclPayload.definitions, Visit.stmts, List.forall_mem_append, or_imp, forall_and] using h
  simpa [functionInfo] using hboth

theorem isSound_declNode (h : ctx.Built) (hfilter : ∀ f ∈ opts.filter, f.Decides) {d : Decl}
    (hd : d.Built ctx) (node : NodeRef) : (declNode ctx opts node d).IsSound ctx := by
  have hinfo := isSound_declInfo node hd.range hd.attrs hd.fullComment
  have hcontext := isSound_declContext h hfilter hd.children
  have hvalue : ∀ level, (declPayload ctx d level).IsSound ctx →
      ∀ l ∈ [declInfo ctx node d, declName (nameOf d),
        qualType ctx (d.valueType.getD QualType.null), declPayload ctx d level], l.IsSound ctx := by
    intro level hpayload
    simp [hinfo, isSound_qualType h hd.hasType, hpayload]
  have hdefinitions := hd.definitions
  have hshape := hd.shape
  rw [declNode]
  -- The shape ties kind and payload together, and the levels read the payload from `d` itself.
  generalize d.kind = k at hshape
  generalize hpayload : d.payload = p at hshape hdefinitions
  cases hshape with
  | unit =>
    refine isSound_node (declInfo ctx node d :: (declContext ctx opts d ++ [typeList ctx]))
      rfl rfl ?_
    exact List.forall_mem_cons.mpr ⟨hinfo, List.forall_mem_append.mpr
      ⟨hcontext, List.forall_mem_singleton.mpr (isSound_typeList h)⟩⟩
  | param =>
    refine isSound_node _ rfl rfl (hvalue .var ?_)
    simpa only [declPayload, hpayload] using isSound_varInfo _ _ hdefinitions
  | var init =>
    refine isSound_node _ rfl rfl (hvalue .var ?_)
    simpa only [declPayload, hpayload] using isSound_varInfo _ _ hdefinitions
  | function params body =>
    refine isSound_node _ rfl rfl (hvalue .function ?_)
    simpa only [declPayload, hpayload] using isSound_functionInfo _ _ _ hdefinitions
  | record =>
    refine isSound_node (declInfo ctx node d :: declName (nameOf d) :: (declaredType ctx d
      ++ (declContext ctx opts d ++ [declPayload ctx d .record]))) rfl rfl ?_
    have hrecord : (declPayload ctx d .record).IsSound ctx := by
      simp [declPayload, hpayload, recordInfo]
    exact List.forall_mem_cons.mpr ⟨hinfo, List.forall_mem_cons.mpr ⟨isSound_declName _,
      List.forall_mem_append.mpr ⟨isSound_declaredType hd.declaredType,
        List.forall_mem_append.mpr ⟨hcontext, List.forall_mem_singleton.mpr hrecord⟩⟩⟩⟩
  | field =>
    refine isSound_node _ rfl rfl (hvalue .field ?_)
    simp [declPayload, hpayload, fieldInfo]

/-! ### Statements -/

theorem isSound_stmtChildren {s : Stmt} (h : ∀ id, some id ∈ s.children → ctx.Has (.stmt id)) :
    (stmtChildren ctx s).IsSound ctx := by
  have hpresent : ∀ id, some id ∈ s.children → (ctx.stmt? id).isSome := fun id hid =>
    Option.isSome_iff_exists.mpr (h id hid).exists_stmt
  rw [stmtChildren, ctx.find?_isStmtMissing hpresent]
  simp only [leaves_list, leaves_leaf, isSound_define_stmt]
  rintro _ hc id rfl
  exact h id hc

theorem isSound_exprInfo (h : ctx.Built) {e : ExprInfo} (he : ctx.HasType e.type) :
    (exprInfo ctx e).IsSound ctx := by
  simp [exprInfo, isSound_qualType h he]

theorem isSound_stmtNode (h : ctx.Built) {s : Stmt} (hs : s.Built ctx) (node : NodeRef) :
    (stmtNode ctx node s).IsSound ctx := by
  have hinfo : (stmtInfo node s).IsSound ctx := by simp [stmtInfo, hs.range]
  have hlevels : ∀ ls : List Layout, (∀ l ∈ ls, l.IsSound ctx) →
      ∀ l ∈ stmtInfo node s :: stmtChildren ctx s :: ls, l.IsSound ctx := fun ls hls =>
    List.forall_mem_cons.mpr ⟨hinfo, List.forall_mem_cons.mpr ⟨isSound_stmtChildren hs.children, hls⟩⟩
  have hexpr : ∀ e ∈ s.expr, ∀ level, (stmtPayload ctx s level).IsSound ctx →
      ∀ l ∈ [exprInfo ctx e, stmtPayload ctx s level], l.IsSound ctx := by
    intro e he level hpayload
    simp [isSound_exprInfo h (hs.type e he), hpayload]
  obtain ⟨hshape, -, -, hdefinitions, hreferences, -⟩ := hs
  obtain ⟨kind, range, children, expr, payload⟩ := s
  cases hshape with
  | compound => exact isSound_node _ rfl rfl (hlevels [] (List.forall_mem_nil _))
  | returnStmt => exact isSound_node _ rfl rfl (hlevels [] (List.forall_mem_nil _))
  | declStmt decls =>
    refine isSound_node _ rfl rfl (hlevels [list decl decls] (List.forall_mem_singleton.mpr ?_))
    simpa [StmtPayload.definitions] using hdefinitions
  | intLiteral e isSigned bitwidth value =>
    refine isSound_node _ rfl rfl (hlevels _ (hexpr e rfl .integerLiteral ?_))
    simp [stmtPayload, integerLiteral]
  | declRef e decl =>
    refine isSound_node _ rfl rfl (hlevels _ (hexpr e rfl .declRefExpr ?_))
    have hdecl : ctx.Has (.decl decl) := hreferences decl List.mem_cons_self
    simp [stmtPayload, isSound_declRef h hdecl]
  | binary e opcode =>
    refine isSound_node _ rfl rfl (hlevels _ (hexpr e rfl .binaryOperator ?_))
    simp [stmtPayload]

end Layout

/-- In a built context the layouts of all nodes are sound, sentinels included. -/
theorem Context.Built.isSound_layout {ctx : Context} (h : ctx.Built) {opts : Options}
    (hfilter : ∀ f ∈ opts.filter, f.Decides) (s : Site) (hs : s.IsPresent ctx) :
    (s.layout ctx opts).IsSound ctx := by
  cases s with
  | decl id =>
    cases id with
    | none =>
      have hinfo : (Layout.declInfo ctx (.sentinel .decl) Layout.sentinelDecl).IsSound ctx :=
        Layout.isSound_declInfo _ (knowsRange_absent ctx) rfl rfl
      rw [Site.layout, Layout.declNode]
      exact Layout.isSound_node _ rfl rfl (List.forall_mem_singleton.mpr hinfo)
    | some id =>
      obtain ⟨d, hd⟩ := (hs (.decl id) rfl).exists_decl
      simpa only [Site.layout, hd] using
        Layout.isSound_declNode h hfilter (h.of_decl? hd) (.decl id)
  | stmt id =>
    cases id with
    | none =>
      have hinfo : (Layout.stmtInfo (.sentinel .stmt) Layout.sentinelStmt).IsSound ctx := by
        simp [Layout.stmtInfo, Layout.sentinelStmt]
      have hchildren : (Layout.stmtChildren ctx Layout.sentinelStmt).IsSound ctx :=
        Layout.isSound_stmtChildren (by simp [Layout.sentinelStmt])
      rw [Site.layout, Layout.stmtNode]
      exact Layout.isSound_node _ rfl rfl (List.forall_mem_cons.mpr
        ⟨hinfo, List.forall_mem_singleton.mpr hchildren⟩)
    | some id =>
      obtain ⟨u, hu⟩ := (hs (.stmt id) rfl).exists_stmt
      simpa only [Site.layout, hu] using Layout.isSound_stmtNode h (h.of_stmt? hu) (.stmt id)
  | comment id =>
    cases id with
    | none =>
      rw [Site.layout, Layout.commentNode]
      refine Layout.isSound_node [Layout.commentInfo (.sentinel .comment) Layout.sentinelComment,
        Layout.commentChildren ctx Layout.sentinelComment] rfl rfl ?_
      simp [Layout.commentInfo, Layout.commentChildren, Layout.sentinelComment]
    | some id =>
      have hlt := has_comment.mp (hs (.comment id) rfl)
      rw [h.comments] at hlt
      exact absurd hlt (Nat.not_lt_zero _)

end SyntaxExport
