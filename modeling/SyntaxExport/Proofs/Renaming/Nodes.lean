import SyntaxExport.Proofs.Renaming.Payloads

/-!
# Layouts of renamed sites

Level by level, and from there node by node. Two places compare positions: a declaration names its
parent where it is not the lexical parent as well, which different positions for different
declarations keep, and a filter looks at the names of files, which do not change.
-/

namespace SyntaxExport

variable {ρ : Renaming} {ctx ctx' : Context}

/-- There is no filter, or one that drops the declarations of some files. -/
def Options.FiltersFiles (opts : Options) : Prop :=
  ∀ f ∈ opts.filter, ∃ names, f = .skipFiles names

/-- The filter decides on a renamed declaration as it does on the declaration. -/
def Options.KeepsRenamed (opts : Options) (ρ : Renaming) (ctx ctx' : Context) : Prop :=
  ∀ {d : Decl} {keep : Bool}, opts.keeps ctx d = .ok keep → opts.keeps ctx' (d.rename ρ) = .ok keep

/-- A filter of files keeps a renamed declaration where it keeps the declaration. -/
theorem Context.CopiedInto.keepsRenamed (h : ctx.CopiedInto ρ ctx') {opts : Options}
    (hfilter : opts.FiltersFiles) : opts.KeepsRenamed ρ ctx ctx' := by
  intro d keep hkeep
  rw [Options.keeps] at hkeep ⊢
  cases hf : opts.filter with
  | none =>
    rw [hf] at hkeep
    exact hkeep
  | some f =>
    obtain ⟨names, rfl⟩ := hfilter f hf
    have hfile : (d.rename ρ).range.file? = d.range.file?.map ρ.file := by
      simp only [SourceRange.file?, Decl.rename, SourceRange.rename, Option.map_map]
      rfl
    rw [hf] at hkeep
    simp only [DeclFilter.skipFiles, hfile] at hkeep ⊢
    cases hd : d.range.file? with
    | none =>
      rw [hd] at hkeep
      exact hkeep
    | some file =>
      rw [hd] at hkeep
      cases hname : ctx.fileName? file with
      | none =>
        simp only [hname] at hkeep
        cases hkeep
      | some name =>
        simp only [hname] at hkeep
        simp only [Option.map_some, h.file hname]
        exact hkeep

namespace Layout

/-! ### Nodes level by level -/

theorem carries_node {κ : Type} [NodeKind κ] (k : κ) {level level' : κ → List Layout}
    (hlevel : ∀ a, ItemsCarry ρ (level a) (level' a)) :
    Carries ρ (node k level) (node k level') := by
  have hlevels : ∀ ks : List κ, ItemsCarry ρ (ks.flatMap level) (ks.flatMap level') := by
    intro ks
    induction ks with
    | nil => exact itemsCarry_nil
    | cons k ks ih =>
      rw [List.flatMap_cons, List.flatMap_cons]
      exact (itemsCarry_append (hlevel k)).mpr ih
  rw [node, node]
  split
  · exact carries_fault _ _
  · exact carries_variant _ (carries_tuple _ _ (hlevels _))

theorem carries_typeNode (id : TypeId) (t : TypeNode) :
    Carries ρ (typeNode id t) (typeNode id (t.rename ρ)) := by
  refine carries_node t.kind fun level => ?_
  unfold typeLevel
  split
  · refine (itemsCarry_cons (carries_object _ _ ?_)).mpr itemsCarry_nil
    simp [TypeNode.rename]
  · split
    · exact itemsCarry_nil
    · exact (itemsCarry_cons (carries_typePayload t _)).mpr itemsCarry_nil

section Mentioned

variable (h : ctx.MentionedIn ρ ctx')

include h

theorem carries_typeList : Carries ρ (typeList ctx) (typeList ctx') := by
  have hentries : ∀ (ts : List TypeNode) (f : Nat → TypeId),
      ItemsCarry ρ (ts.mapIdx fun i t => typeNode (f i) t)
        ((ts.map (TypeNode.rename ρ)).mapIdx fun i t => typeNode (f i) t) := by
    intro ts
    induction ts with
    | nil => exact fun _ => itemsCarry_nil
    | cons t ts ih =>
      intro f
      rw [List.map_cons, List.mapIdx_cons, List.mapIdx_cons]
      exact (itemsCarry_cons (carries_typeNode (f 0) t)).mpr (ih fun i => f (i + 1))
  have hnoType : Carries ρ noType noType := by
    refine carries_variant _ (carries_tuple _ _ ?_)
    refine (itemsCarry_cons (carries_object _ _ ?_)).mpr itemsCarry_nil
    simp
  refine carries_array _ _ ?_
  rw [h.types, Array.toList_map]
  refine (itemsCarry_append (hentries ctx.types.toList Id.ofSize)).mpr ?_
  exact (itemsCarry_cons hnoType).mpr itemsCarry_nil

/-! ### Declarations -/

omit h in
theorem carries_redeclaration (r : Redeclaration) :
    Carries ρ (redeclaration r) (redeclaration (r.rename ρ)) := by
  cases r <;> exact carries_variant _ (carries_identity.mpr rfl)

theorem carries_declInfo (n : NodeRef) (d : Decl) :
    Carries ρ (declInfo ctx n d) (declInfo ctx' (n.rename ρ) (d.rename ρ)) := by
  have hparent : ((d.rename ρ).semanticParent.filter fun p => (d.rename ρ).lexicalParent ≠ some p)
      = (d.semanticParent.filter fun p => d.lexicalParent ≠ some p).map ρ.decl := by
    simp only [Decl.rename]
    cases d.semanticParent with
    | none => rfl
    | some p =>
      have hsame : d.lexicalParent.map ρ.decl = some (ρ.decl p) ↔ d.lexicalParent = some p := by
        cases d.lexicalParent <;> simp
      by_cases hp : d.lexicalParent = some p
      · simp [Option.filter, hp]
      · simp only [Option.map_some, Option.filter, ne_eq, hsame, hp, not_false_eq_true, decide_true]
        rfl
  rw [declInfo, declInfo, hparent]
  refine carries_object _ _ ?_
  simp [Decl.rename, carries_redeclaration, carries_attr h]

variable {opts : Options} (hkeeps : opts.KeepsRenamed ρ ctx ctx')

include hkeeps

theorem keptChildren_rename : ∀ {ids kept : List DeclId}, keptChildren ctx opts ids = .ok kept →
    keptChildren ctx' opts (ids.map ρ.decl) = .ok (kept.map ρ.decl)
  | [], _, hkept => by
    cases hkept
    rfl
  | id :: ids, kept, hkept => by
    rw [keptChildren] at hkept
    cases hd : ctx.decl? id with
    | none =>
      rw [hd] at hkept
      cases hkept
    | some d =>
      simp only [hd] at hkept
      cases hkeep : opts.keeps ctx d with
      | error f =>
        rw [hkeep] at hkept
        cases hkept
      | ok keep =>
        simp only [hkeep] at hkept
        cases hrest : keptChildren ctx opts ids with
        | error e =>
          rw [hrest] at hkept
          cases hkept
        | ok rest =>
          simp only [hrest] at hkept
          cases hkept
          rw [List.map_cons, keptChildren]
          simp only [h.decl hd, hkeeps hkeep, keptChildren_rename hrest]
          cases keep <;> rfl

theorem itemsCarry_declContext (d : Decl) :
    ItemsCarry ρ (declContext ctx opts d) (declContext ctx' opts (d.rename ρ)) := by
  have hcontext : (d.rename ρ).context.getD {} = (d.context.getD {}).rename ρ := by
    simp only [Decl.rename]
    cases d.context <;> rfl
  rw [declContext, declContext, hcontext]
  refine (itemsCarry_cons ?_).mpr ?_
  · cases hkept : keptChildren ctx opts (d.context.getD {}).decls with
    | error e => exact carries_fault _ _
    | ok kept =>
      simp only [DeclContext.rename, keptChildren_rename h hkeeps hkept]
      exact carries_list _ fun id => carries_define.mpr rfl
  · refine (itemsCarry_cons (carries_object _ _ ?_)).mpr itemsCarry_nil
    simp [DeclContext.rename]

omit hkeeps in
theorem itemsCarry_declaredType (d : Decl) :
    ItemsCarry ρ (declaredType ctx d) (declaredType ctx' (d.rename ρ)) := by
  have htype : (d.rename ρ).typeForDecl = d.typeForDecl := rfl
  rw [declaredType, declaredType, htype]
  refine (itemsCarry_cons ?_).mpr ((itemsCarry_cons ?_).mpr itemsCarry_nil)
  · cases d.typeForDecl with
    | none => exact carries_scalar _
    | some t =>
      simp only [h.type?]
      cases ctx.type? t with
      | none => exact carries_fault _ _
      | some node => exact carries_variant _ (carries_scalar _)
  · exact carries_identity.mpr (NodeRef.rename_ofType ρ _).symm

theorem carries_declNode (n : NodeRef) (d : Decl) :
    Carries ρ (declNode ctx opts n d) (declNode ctx' opts (n.rename ρ) (d.rename ρ)) := by
  have hvalue : (d.rename ρ).valueType = d.valueType := rfl
  have hname : nameOf (d.rename ρ) = nameOf d := rfl
  have hcontext := itemsCarry_declContext h hkeeps d
  have hpayload : ∀ level, ItemsCarry ρ [declPayload ctx d level]
      [declPayload ctx' (d.rename ρ) level] :=
    fun level => (itemsCarry_cons (carries_declPayload h d level)).mpr itemsCarry_nil
  refine carries_node d.kind fun level => ?_
  unfold declLevel
  rw [hvalue, hname]
  split
  · exact (itemsCarry_cons (carries_declInfo h n d)).mpr itemsCarry_nil
  · exact (itemsCarry_cons (carries_declName _)).mpr itemsCarry_nil
  · exact itemsCarry_declaredType h d
  · exact (itemsCarry_cons (carries_qualType h _)).mpr itemsCarry_nil
  iterate 4 exact hcontext
  · refine (itemsCarry_append hcontext).mpr ?_
    exact (itemsCarry_cons (carries_typeList h)).mpr itemsCarry_nil
  · exact (itemsCarry_append hcontext).mpr (hpayload .block)
  · exact (itemsCarry_append hcontext).mpr (hpayload .namespaceDecl)
  · split
    · exact itemsCarry_nil
    · exact hpayload level

end Mentioned

/-! ### Comments -/

/-- A list in which nothing is found has no renamed element that is found either. -/
theorem find?_map_eq_none {α : Type} {f : α → α} {p q : α → Bool} {as : List α}
    (hfind : as.find? p = none) (hpq : ∀ a, p a = false → q (f a) = false) :
    (as.map f).find? q = none := by
  rw [List.find?_eq_none] at hfind ⊢
  intro b hb
  obtain ⟨a, ha, rfl⟩ := List.mem_map.mp hb
  rw [hpq a (Bool.eq_false_iff.mpr (hfind a ha))]
  exact Bool.false_ne_true

variable (h : ctx.CopiedInto ρ ctx')

include h

theorem isCommentMissing_rename {child : Option CommentId}
    (hpresent : isCommentMissing ctx child = false) :
    isCommentMissing ctx' (child.map ρ.comment) = false := by
  cases child with
  | none => rfl
  | some id =>
    rw [isCommentMissing, Option.isNone_eq_false_iff, Option.isSome_iff_exists] at hpresent
    obtain ⟨c, hc⟩ := hpresent
    simp [isCommentMissing, h.comment hc]

theorem carries_commentChildren (c : Comment) :
    Carries ρ (commentChildren ctx c) (commentChildren ctx' (c.rename ρ)) := by
  rw [commentChildren, commentChildren]
  cases hfind : c.children.find? (isCommentMissing ctx) with
  | some child =>
    have hmissing := List.find?_some hfind
    cases child with
    | none => cases hmissing
    | some id => exact carries_fault _ _
  | none =>
    have hfind' : (c.rename ρ).children.find? (isCommentMissing ctx') = none :=
      find?_map_eq_none hfind fun _ => isCommentMissing_rename h
    rw [hfind']
    exact carries_list _ fun child => carries_define.mpr rfl

theorem carries_commentNode (n : NodeRef) (c : Comment) :
    Carries ρ (commentNode ctx n c) (commentNode ctx' (n.rename ρ) (c.rename ρ)) := by
  refine carries_node c.kind fun level => ?_
  unfold commentLevel
  split
  · refine (itemsCarry_cons (carries_object _ _ ?_)).mpr ?_
    · simp [Comment.rename]
    · simp [carries_commentChildren h]
  · split
    · exact itemsCarry_nil
    · exact (itemsCarry_cons (carries_commentPayload c _)).mpr itemsCarry_nil

/-! ### Statements -/

theorem isStmtMissing_rename {child : Option StmtId}
    (hpresent : isStmtMissing ctx child = false) :
    isStmtMissing ctx' (child.map ρ.stmt) = false := by
  cases child with
  | none => rfl
  | some id =>
    rw [isStmtMissing, Option.isNone_eq_false_iff, Option.isSome_iff_exists] at hpresent
    obtain ⟨s, hs⟩ := hpresent
    simp [isStmtMissing, h.stmt hs]

theorem carries_stmtChildren (s : Stmt) :
    Carries ρ (stmtChildren ctx s) (stmtChildren ctx' (s.rename ρ)) := by
  rw [stmtChildren, stmtChildren]
  cases hfind : s.children.find? (isStmtMissing ctx) with
  | some child =>
    have hmissing := List.find?_some hfind
    cases child with
    | none => cases hmissing
    | some id => exact carries_fault _ _
  | none =>
    have hfind' : (s.rename ρ).children.find? (isStmtMissing ctx') = none :=
      find?_map_eq_none hfind fun _ => isStmtMissing_rename h
    rw [hfind']
    exact carries_list _ fun child => carries_define.mpr rfl

theorem carries_stmtNode (n : NodeRef) (s : Stmt) :
    Carries ρ (stmtNode ctx n s) (stmtNode ctx' (n.rename ρ) (s.rename ρ)) := by
  have hexpr : (s.rename ρ).expr = s.expr := rfl
  refine carries_node s.kind fun level => ?_
  unfold stmtLevel
  rw [hexpr]
  split
  · refine (itemsCarry_cons (carries_object _ _ ?_)).mpr ?_
    · simp [Stmt.rename]
    · simp [carries_stmtChildren h]
  · split
    · exact (itemsCarry_cons (carries_exprInfo h.mentionedIn _)).mpr itemsCarry_nil
    · exact (itemsCarry_cons (carries_fault _ _)).mpr itemsCarry_nil
  · split
    · exact itemsCarry_nil
    · exact (itemsCarry_cons (carries_stmtPayload h.mentionedIn s _)).mpr itemsCarry_nil

end Layout

/-- What a site defines carries over to the other context. Absent nodes stay absent. -/
theorem Site.carries_layout (h : ctx.CopiedInto ρ ctx') {opts : Options}
    (hkeeps : opts.KeepsRenamed ρ ctx ctx') (s : Site) :
    Layout.Carries ρ (s.layout ctx opts) ((s.rename ρ).layout ctx' opts) := by
  cases s with
  | decl id =>
    cases id with
    | none => exact Layout.carries_declNode h.mentionedIn hkeeps (.sentinel .decl) Layout.sentinelDecl
    | some id =>
      rw [layout]
      cases hd : ctx.decl? id with
      | none => exact Layout.carries_fault _ _
      | some d =>
        simp only [rename_decl, Option.map_some, layout, h.decl hd]
        exact Layout.carries_declNode h.mentionedIn hkeeps (.decl id) d
  | stmt id =>
    cases id with
    | none => exact Layout.carries_stmtNode h (.sentinel .stmt) Layout.sentinelStmt
    | some id =>
      rw [layout]
      cases hs : ctx.stmt? id with
      | none => exact Layout.carries_fault _ _
      | some s =>
        simp only [rename_stmt, Option.map_some, layout, h.stmt hs]
        exact Layout.carries_stmtNode h (.stmt id) s
  | comment id =>
    cases id with
    | none => exact Layout.carries_commentNode h (.sentinel .comment) Layout.sentinelComment
    | some id =>
      rw [layout]
      cases hc : ctx.comment? id with
      | none => exact Layout.carries_fault _ _
      | some c =>
        simp only [rename_comment, Option.map_some, layout, h.comment hc]
        exact Layout.carries_commentNode h (.comment id) c

end SyntaxExport
