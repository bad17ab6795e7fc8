import Mathlib.Data.List.Flatten
import SyntaxExport.Proofs.Layout.Outline

/-!
# Definitions inside a node

Which nodes the layout of a node defines inside it, in document order: what the context has inside the
node, in the same order, less the children that the filter drops and the definitions of a payload
that no level of the kind reads.

The levels of a kind come one after the other. A level that has the children of a declaration context
comes before any level that reads definitions from a payload, so the order is that of the context.
-/

namespace SyntaxExport

/-! ### Lists of marks -/

namespace Mark

/-- A mark that stands for no node of an arena. -/
inductive IsSilent : Mark Item → Prop where
  | head (a : Item) : IsSilent (.head a)
  | locations (owner : Option Item) (field : String) (parts : List (Tree Item)) :
    IsSilent (.locations owner field parts)
  | null : IsSilent (.node (.identity .null))
  | decl : IsSilent (.define (.decl none))
  | stmt : IsSilent (.define (.stmt none))
  | comment : IsSilent (.define (.comment none))

/-- Marks for nodes of the arenas, one after the other. -/
inductive Lists : List (Mark Item) → List Visit → Prop where
  | nil : Lists [] []
  | visit (v : Visit) {ms : List (Mark Item)} {vs : List Visit} : Lists ms vs →
    Lists (v.marks ++ ms) (v :: vs)
  | silent {m : Mark Item} {ms : List (Mark Item)} {vs : List Visit} : m.IsSilent → Lists ms vs →
    Lists (m :: ms) vs

namespace Lists

theorem append {ms ms' : List (Mark Item)} {vs vs' : List Visit} (h : Lists ms vs)
    (h' : Lists ms' vs') : Lists (ms ++ ms') (vs ++ vs') := by
  induction h with
  | nil => exact h'
  | visit v _ ih =>
    rw [List.append_assoc]
    exact .visit v ih
  | silent hm _ ih => exact .silent hm ih

theorem flatMap {α : Type} {f : α → List (Mark Item)} {g : α → List Visit} :
    ∀ (l : List α), (∀ a ∈ l, Lists (f a) (g a)) → Lists (l.flatMap f) (l.flatMap g)
  | [], _ => .nil
  | a :: l, h => by
    have hrest := flatMap l fun b hb => h b (List.mem_cons_of_mem a hb)
    rw [List.flatMap_cons, List.flatMap_cons]
    exact (h a List.mem_cons_self).append hrest

theorem mem {ms : List (Mark Item)} {vs : List Visit} (h : Lists ms vs) {v : Visit} (hv : v ∈ vs)
    {m : Mark Item} (hm : m ∈ v.marks) : m ∈ ms := by
  induction h with
  | nil => cases hv
  | visit w _ ih =>
    rcases List.mem_cons.mp hv with rfl | hv
    · exact List.mem_append_left _ hm
    · exact List.mem_append_right _ (ih hv)
  | silent _ _ ih => exact List.mem_cons_of_mem _ (ih hv)

theorem visits : ∀ vs : List Visit, Lists (vs.flatMap Visit.marks) vs
  | [] => .nil
  | v :: vs => .visit v (visits vs)

/-- Marks that stand for no nodes. -/
theorem silents : ∀ {ms : List (Mark Item)}, (∀ m ∈ ms, m.IsSilent) → Lists ms []
  | [], _ => .nil
  | m :: _, h =>
    .silent (h m List.mem_cons_self) (silents fun m' hm' => h m' (List.mem_cons_of_mem m hm'))

/-- The places of declarations that are present. -/
theorem decls : ∀ ds : List DeclId,
    Lists (ds.map fun d => .define (.decl (some d))) (ds.map .decl)
  | [] => .nil
  | d :: ds => .visit (.decl d) (decls ds)

/-- The places of statements that may be absent. -/
theorem stmts : ∀ ss : List (Option StmtId),
    Lists (ss.map fun s => .define (.stmt s)) (Visit.stmts ss)
  | [] => .nil
  | none :: ss => .silent .stmt (stmts ss)
  | some id :: ss => .visit (.stmt id) (stmts ss)

/-- The places of comments that may be absent. -/
theorem comments : ∀ cs : List (Option CommentId),
    Lists (cs.map fun c => .define (.comment c)) (cs.filterMap (·.map .comment))
  | [] => .nil
  | none :: cs => .silent .comment (comments cs)
  | some id :: cs => .visit (.comment id) (comments cs)

end Lists

end Mark

open Mark (Lists)

/-! ### Comments -/

namespace Context

variable (ctx : Context) (opts : Options)

/-- The nodes that are written inside a comment, unless one of them is not in the context. -/
def writtenInComment (c : Comment) : List Visit :=
  match c.children.find? (Layout.isCommentMissing ctx) with
  | some (some _) => []
  | _ => c.children.filterMap (·.map .comment)

theorem lists_commentChildMarks (c : Comment) :
    Lists (Layout.commentChildMarks ctx c) (ctx.writtenInComment c) := by
  rcases hfind : c.children.find? (Layout.isCommentMissing ctx) with _ | _ | id <;>
    simp only [Layout.commentChildMarks, writtenInComment, hfind]
  · exact .comments _
  · exact .comments _
  · exact .nil

/-! ### Statements -/

end Context

/-- The levels that read the definitions of a payload. -/
def StmtPayload.homes : StmtPayload → List StmtKind
  | .decls _ => [.declStmt]
  | .catchParam _ => [.cxxCatchStmt, .objCAtCatchStmt]
  | .ownedDecl _ => [.blockExpr, .lambdaExpr]
  | _ => []

namespace Context

variable (ctx : Context) (opts : Options)

theorem lists_attrs (attrs : List AttrId) : Lists (attrs.flatMap (Layout.attrMarks ctx)) [] := by
  refine .silents fun m hm => ?_
  obtain ⟨id, -, hm⟩ := List.mem_flatMap.mp hm
  unfold Layout.attrMarks at hm
  split at hm
  · cases hm
  · rcases List.mem_cons.mp hm with rfl | hm
    · exact .head _
    · rw [List.mem_singleton.mp hm]
      exact .locations _ _ _

theorem lists_stmtMarks (p : StmtPayload) (level : StmtKind) :
    Lists (Layout.stmtMarks ctx p level) (if level ∈ p.homes then p.definitions else []) := by
  unfold Layout.stmtMarks
  split
  · cases p
    case decls ds => exact .decls ds
    all_goals exact .nil
  · cases p
    case attributes attrs => exact lists_attrs ctx attrs
    all_goals exact .nil
  · cases p
    case catchParam d => cases d <;> first | exact .nil | exact .visit (.decl _) .nil
    all_goals exact .nil
  · cases p
    case catchParam d => cases d <;> first | exact .nil | exact .visit (.decl _) .nil
    all_goals exact .nil
  · cases p
    case ownedDecl d => cases d <;> first | exact .silent .decl .nil | exact .visit (.decl _) .nil
    all_goals exact .nil
  · cases p
    case ownedDecl d => cases d <;> first | exact .silent .decl .nil | exact .visit (.decl _) .nil
    all_goals exact .nil
  · have hhomes : level ∉ p.homes := by
      cases p <;> simp_all [StmtPayload.homes]
    rw [if_neg hhomes]
    exact .nil

/-- No two levels of one kind read the definitions of a payload. -/
theorem eq_of_mem_homes (p : StmtPayload) :
    ∀ a ∈ p.homes, ∀ b ∈ p.homes, a ∈ NodeKind.lineage b → a = b := by
  have hapart : ∀ levels ∈ ([[], [.declStmt], [.cxxCatchStmt, .objCAtCatchStmt],
      [.blockExpr, .lambdaExpr]] : List (List StmtKind)),
      ∀ a ∈ levels, ∀ b ∈ levels, a ∈ NodeKind.lineage b → a = b := by
    decide
  exact hapart p.homes (by cases p <;> simp [StmtPayload.homes])

/-- The children of a statement that are written, unless one of them is not in the context. -/
def writtenStmts (s : Stmt) : List Visit :=
  match s.children.find? (Layout.isStmtMissing ctx) with
  | some (some _) => []
  | _ => Visit.stmts s.children

/-- The nodes that are written inside a statement: its children, and the definitions of its payload,
if a level of its kind reads them. -/
def writtenInStmt (s : Stmt) : List Visit :=
  ctx.writtenStmts s ++ if ∃ level ∈ NodeKind.lineage s.kind, level ∈ s.payload.homes
    then s.payload.definitions else []

theorem lists_stmtChildMarks (s : Stmt) :
    Lists (Layout.stmtChildMarks ctx s) (ctx.writtenStmts s) := by
  rcases hfind : s.children.find? (Layout.isStmtMissing ctx) with _ | _ | id <;>
    simp only [Layout.stmtChildMarks, writtenStmts, hfind]
  · exact .stmts _
  · exact .stmts _
  · exact .nil

theorem exists_lists_stmtNode (n : NodeRef) {s : Stmt} (h : NodeKind.isAbstract s.kind = false) :
    ∃ ms, Layout.outline none (Layout.stmtNode ctx n s) = .node (.identity n) :: ms
      ∧ Lists ms (ctx.writtenInStmt s) := by
  rw [Layout.outline_stmtNode, h, if_neg Bool.false_ne_true]
  refine ⟨_, rfl, .silent (.head _) (.silent (.locations _ _ _) ?_)⟩
  have hpayload : Lists ((NodeKind.lineage s.kind).flatMap (Layout.stmtMarks ctx s.payload))
      ((NodeKind.lineage s.kind).flatMap fun level =>
        if level ∈ s.payload.homes then s.payload.definitions else []) :=
    .flatMap _ fun level _ => lists_stmtMarks ctx s.payload level
  rw [NodeKind.flatMap_ite_lineage (eq_of_mem_homes s.payload)] at hpayload
  exact (lists_stmtChildMarks ctx s).append hpayload

theorem exists_lists_commentNode (n : NodeRef) {c : Comment} (h : NodeKind.isAbstract c.kind = false) :
    ∃ ms, Layout.outline none (Layout.commentNode ctx n c) = .node (.identity n) :: ms
      ∧ Lists ms (ctx.writtenInComment c) := by
  rw [Layout.outline_commentNode, h, if_neg Bool.false_ne_true]
  exact ⟨_, rfl, .silent (.head _) (.silent (.locations _ _ _) (lists_commentChildMarks ctx c))⟩

/-! ### Declarations -/

/-- The children of a declaration that are written. -/
def writtenChildren (d : Decl) : List Visit :=
  match Layout.keptChildren ctx opts (d.context.getD {}).decls with
  | .error _ => []
  | .ok ids => ids.map .decl

/-- The types of a translation unit that are written. -/
def writtenTypes : List Visit :=
  ctx.types.toList.zipIdx.flatMap fun t =>
    if NodeKind.isAbstract t.1.kind then [] else [.type (Id.ofSize t.2)]

/-- The nodes that are written inside a declaration: its comment, the children that pass the filter,
the types of a translation unit, and the definitions of its payload, if a level of its kind reads
them. -/
def writtenInDecl (d : Decl) : List Visit :=
  d.fullComment.toList.map .comment
    ++ (if d.kind.isDeclContext then ctx.writtenChildren opts d else [])
    ++ (if d.kind = .translationUnit then ctx.writtenTypes else [])
    ++ (if ∃ level ∈ NodeKind.lineage d.kind, d.payload.home? = some level then d.payload.definitions
      else [])

theorem lists_childMarks (d : Decl) :
    Lists (Layout.childMarks ctx opts d) (ctx.writtenChildren opts d) := by
  unfold Layout.childMarks writtenChildren
  cases Layout.keptChildren ctx opts (d.context.getD {}).decls with
  | error e => exact .nil
  | ok ids => exact .visits _

theorem lists_typeList (owner : Option Item) :
    Lists (Layout.outline owner (Layout.typeList ctx)) ctx.writtenTypes := by
  have htypes : Lists (ctx.types.toList.zipIdx.flatMap fun t =>
      if NodeKind.isAbstract t.1.kind then [] else (Visit.type (Id.ofSize t.2)).marks)
      ctx.writtenTypes := by
    refine .flatMap _ fun t _ => ?_
    split
    · exact .nil
    · exact .visit (.type _) .nil
  have hend : Lists Layout.noTypeMarks [] := .silent .null (.silent (.head _) .nil)
  have h := htypes.append hend
  rw [List.append_nil] at h
  rw [Layout.outline_typeList]
  exact h

/-- What a level below the root writes: children, types, definitions. -/
def writtenAt (d : Decl) (level : DeclKind) : List Visit :=
  (if level ∈ Layout.contextLevels then ctx.writtenChildren opts d else [])
    ++ ((if level = .translationUnit then ctx.writtenTypes else [])
      ++ if d.payload.home? = some level then d.payload.definitions else [])

theorem lists_declMarks (owner : Option Item) (d : Decl) (level : DeclKind) :
    Lists (Layout.declMarks owner ctx opts d level) (ctx.writtenAt opts d level) := by
  have hchildren : Lists (if level ∈ Layout.contextLevels then Layout.childMarks ctx opts d else [])
      (if level ∈ Layout.contextLevels then ctx.writtenChildren opts d else []) := by
    split
    · exact lists_childMarks ctx opts d
    · exact .nil
  have htypes : Lists (if level = .translationUnit then Layout.outline owner (Layout.typeList ctx)
      else []) (if level = .translationUnit then ctx.writtenTypes else []) := by
    split
    · exact lists_typeList ctx owner
    · exact .nil
  have hplaces : Lists ((d.payload.places level).map fun x => .place owner x.1 x.2) [] := by
    refine .silents fun m hm => ?_
    obtain ⟨x, -, rfl⟩ := List.mem_map.mp hm
    exact .locations _ _ _
  have hpayload := (Lists.visits (d.payload.definitionsAt level)).append hplaces
  rw [List.append_nil] at hpayload
  rw [Layout.declMarks, List.append_assoc]
  exact hchildren.append (htypes.append hpayload)

/-- A level above one with children has neither types nor definitions. -/
theorem nothing_above_children {a b : DeclKind} (hab : a ∈ NodeKind.lineage b) (hne : a ≠ b)
    (hb : b ∈ Layout.contextLevels) (p : DeclPayload) : a ≠ .translationUnit ∧ p.home? ≠ some a := by
  have hlevels : ∀ a ∈ DeclKind.translationUnit :: Layout.payloadLevels,
      ∀ b ∈ Layout.contextLevels, a ∈ NodeKind.lineage b → a = b := by
    decide
  refine ⟨?_, fun hhome => ?_⟩
  · rintro rfl
    exact hne (hlevels _ List.mem_cons_self b hb hab)
  · have ha : a ∈ Layout.payloadLevels := by
      cases p <;> first | cases hhome; decide | cases hhome
    exact hne (hlevels a (List.mem_cons_of_mem _ ha) b hb hab)

theorem isDeclContext_iff (k : DeclKind) :
    (∃ level ∈ NodeKind.lineage k, level ∈ Layout.contextLevels) ↔ k.isDeclContext := by
  cases k <;> decide

theorem translationUnit_mem_lineage (k : DeclKind) :
    (∃ level ∈ NodeKind.lineage k, level = .translationUnit) ↔ k = .translationUnit := by
  cases k <;> decide

/-- The levels of a kind write children, types and definitions in the order of the context. -/
theorem flatMap_writtenAt (d : Decl) : (NodeKind.lineage d.kind).flatMap (ctx.writtenAt opts d)
    = (if d.kind.isDeclContext then ctx.writtenChildren opts d else [])
      ++ ((if d.kind = .translationUnit then ctx.writtenTypes else [])
        ++ if ∃ level ∈ NodeKind.lineage d.kind, d.payload.home? = some level
          then d.payload.definitions else []) := by
  have hchildren := NodeKind.flatMap_ite_lineage (p := (· ∈ Layout.contextLevels)) (by decide)
    (ctx.writtenChildren opts d) d.kind
  have htypes := NodeKind.flatMap_ite_lineage (p := (· = DeclKind.translationUnit))
    (fun a ha b hb _ => ha.trans hb.symm) ctx.writtenTypes d.kind
  have hdefinitions := NodeKind.flatMap_ite_lineage (p := (d.payload.home? = some ·))
    (fun a ha b hb _ => Option.some.inj (ha.symm.trans hb)) d.payload.definitions d.kind
  simp only [isDeclContext_iff] at hchildren
  simp only [translationUnit_mem_lineage] at htypes
  rw [← hchildren, ← htypes, ← hdefinitions, ← NodeKind.flatMap_append_of_pairwise,
    ← NodeKind.flatMap_append_of_pairwise]
  · rfl
  · refine (NodeKind.pairwise_lineage d.kind).imp ?_
    intro a b ⟨hab, hne⟩
    by_cases hb : b ∈ Layout.contextLevels
    · obtain ⟨hunit, hhome⟩ := nothing_above_children hab hne hb d.payload
      rw [if_neg hunit, if_neg hhome]
      exact .inl rfl
    · exact .inr (if_neg hb)
  · refine (NodeKind.pairwise_lineage d.kind).imp ?_
    intro a b ⟨hab, hne⟩
    by_cases hb : b = .translationUnit
    · have hcontext : b ∈ Layout.contextLevels := by
        rw [hb]
        decide
      exact .inl (if_neg (nothing_above_children hab hne hcontext d.payload).2)
    · exact .inr (if_neg hb)

theorem exists_lists_declNode (n : NodeRef) {d : Decl} (h : NodeKind.isAbstract d.kind = false) :
    ∃ ms, Layout.outline none (Layout.declNode ctx opts n d) = .node (.identity n) :: ms
      ∧ Lists ms (ctx.writtenInDecl opts d) := by
  rw [Layout.outline_declNode, h, if_neg Bool.false_ne_true, Layout.outline_declInfo]
  refine ⟨_, rfl, .silent (.head _) (.silent (.locations _ _ _) ?_)⟩
  have hcomment : Lists (d.fullComment.toList.map fun c => .define (.comment (some c)))
      (d.fullComment.toList.map .comment) := by
    cases d.fullComment
    · exact .nil
    · exact .visit (.comment _) .nil
  have hlevels : Lists ((NodeKind.lineage d.kind).flatMap
      (Layout.declMarks (some (.identity n)) ctx opts d))
      ((NodeKind.lineage d.kind).flatMap (ctx.writtenAt opts d)) :=
    .flatMap _ fun level _ => lists_declMarks ctx opts _ d level
  rw [flatMap_writtenAt] at hlevels
  have hnode := ((lists_attrs ctx d.attrs).append hcomment).append hlevels
  rw [writtenInDecl, List.append_assoc, List.append_assoc]
  exact hnode

/-! ### What is left out -/

theorem writtenInComment_sublist (c : Comment) :
    (ctx.writtenInComment c).Sublist (c.children.filterMap (·.map .comment)) := by
  unfold writtenInComment
  split
  · exact List.nil_sublist _
  · exact .refl _

theorem writtenInStmt_sublist (s : Stmt) :
    (ctx.writtenInStmt s).Sublist (Visit.stmts s.children ++ s.payload.definitions) := by
  refine .append ?_ ?_
  · unfold writtenStmts
    split
    · exact List.nil_sublist _
    · exact .refl _
  · split
    · exact .refl _
    · exact List.nil_sublist _

theorem keptChildren_sublist : ∀ {ids kept : List DeclId},
    Layout.keptChildren ctx opts ids = .ok kept → kept.Sublist ids
  | [], _, h => by
    cases h
    exact .refl _
  | id :: ids, kept, h => by
    rw [Layout.keptChildren] at h
    split at h
    · cases h
    · split at h
      · cases h
      · split at h
        · cases h
        · next keep _ _ rest hrest =>
          have hsublist := keptChildren_sublist hrest
          cases h
          cases keep
          · exact hsublist.cons id
          · exact hsublist.cons_cons id

/-- What is kept is what the filter keeps. -/
theorem mem_keptChildren {id : DeclId} : ∀ {ids kept : List DeclId},
    Layout.keptChildren ctx opts ids = .ok kept →
      (id ∈ kept ↔ id ∈ ids ∧ ∃ d, ctx.decl? id = some d ∧ opts.keeps ctx d = .ok true)
  | [], _, h => by
    cases h
    simp
  | i :: ids, kept, h => by
    rw [Layout.keptChildren] at h
    split at h
    · cases h
    · next d hd =>
      split at h
      · cases h
      · next keep hkeep =>
        split at h
        · cases h
        · next rest hrest =>
          have ih : id ∈ rest ↔ id ∈ ids ∧ ∃ d, ctx.decl? id = some d ∧ opts.keeps ctx d = .ok true :=
            mem_keptChildren hrest
          cases h
          by_cases hid : id = i
          · subst hid
            cases keep <;> simp [ih, hd, hkeep]
          · cases keep <;> simp [ih, hid]

theorem writtenChildren_sublist (d : Decl) :
    (ctx.writtenChildren opts d).Sublist ((d.context.getD {}).decls.map .decl) := by
  unfold writtenChildren
  split
  · exact List.nil_sublist _
  · next hkept => exact (keptChildren_sublist ctx opts hkept).map _

/-- The types of a context with their positions. -/
theorem typeIds_eq : ctx.typeIds.map Visit.type
    = ctx.types.toList.zipIdx.flatMap fun t => [.type (Id.ofSize t.2)] := by
  have hpositions : List.range ctx.types.size = ctx.types.toList.zipIdx.map (·.2) := by
    rw [List.zipIdx_map_snd, Array.length_toList, List.range_eq_range']
  rw [typeIds, hpositions, List.map_map, List.map_map, List.map_eq_flatMap]
  rfl

theorem writtenTypes_sublist : ctx.writtenTypes.Sublist (ctx.typeIds.map .type) := by
  rw [typeIds_eq]
  refine List.Sublist.flatMap_right _ fun t _ => ?_
  split
  · exact List.nil_sublist _
  · exact .refl _

theorem writtenInDecl_sublist (d : Decl) :
    (ctx.writtenInDecl opts d).Sublist (ctx.insideDecl d) := by
  refine ((List.Sublist.refl _).append ?_ |>.append ?_).append ?_
  · split
    · exact ctx.writtenChildren_sublist opts d
    · exact .refl _
  · split
    · exact ctx.writtenTypes_sublist
    · exact .refl _
  · split
    · exact .refl _
    · exact List.nil_sublist _

/-! ### Where nothing is left out -/

theorem find?_isCommentMissing {children : List (Option CommentId)}
    (h : ∀ id, some id ∈ children → (ctx.comment? id).isSome) :
    children.find? (Layout.isCommentMissing ctx) = none := by
  rw [List.find?_eq_none]
  rintro (- | id) hid
  · exact Bool.false_ne_true
  · simpa [Layout.isCommentMissing, Option.isSome_iff_ne_none] using h id hid

theorem find?_isStmtMissing {children : List (Option StmtId)}
    (h : ∀ id, some id ∈ children → (ctx.stmt? id).isSome) :
    children.find? (Layout.isStmtMissing ctx) = none := by
  rw [List.find?_eq_none]
  rintro (- | id) hid
  · exact Bool.false_ne_true
  · simpa [Layout.isStmtMissing, Option.isSome_iff_ne_none] using h id hid

theorem writtenInComment_eq {c : Comment}
    (h : ∀ id, some id ∈ c.children → (ctx.comment? id).isSome) :
    ctx.writtenInComment c = c.children.filterMap (·.map .comment) := by
  rw [writtenInComment, ctx.find?_isCommentMissing h]

theorem writtenStmts_eq {s : Stmt} (h : ∀ id, some id ∈ s.children → (ctx.stmt? id).isSome) :
    ctx.writtenStmts s = Visit.stmts s.children := by
  rw [writtenStmts, ctx.find?_isStmtMissing h]

/-- A level that writes something else for the payload of a statement than for none. -/
def ReadsStmt (s : Stmt) (level : StmtKind) : Prop :=
  ∃ n, Layout.stmtLevel ctx n s level ≠ Layout.stmtLevel ctx n { s with payload := .empty } level

/-- A level that writes something else for the payload of a declaration than for none. -/
def ReadsDecl (d : Decl) (level : DeclKind) : Prop :=
  ∃ n, Layout.declLevel ctx opts n d level
    ≠ Layout.declLevel ctx opts n { d with payload := .empty } level

/-- Only the levels that write the definitions of a payload read it, where there are any. -/
theorem stmtLevel_eq_of_notMem_homes (n : NodeRef) (s : Stmt) {p : StmtPayload} {level : StmtKind}
    (hp : p.definitions ≠ []) (h : level ∉ p.homes) :
    Layout.stmtLevel ctx n { s with payload := p } level
      = Layout.stmtLevel ctx n { s with payload := .empty } level := by
  cases p
  case decls | catchParam | ownedDecl =>
    cases level <;> first | rfl | exact absurd (by simp [StmtPayload.homes]) h
  all_goals exact absurd rfl hp

/-- Only the level that writes the definitions of a payload and the levels below read it. -/
theorem declLevel_eq_of_notMem_lineage (n : NodeRef) (d : Decl) {p : DeclPayload}
    {home level : DeclKind} (hp : p.home? = some home) (h : home ∉ NodeKind.lineage level) :
    Layout.declLevel ctx opts n { d with payload := p } level
      = Layout.declLevel ctx opts n { d with payload := .empty } level := by
  cases p <;> cases hp
  all_goals cases level <;> first | rfl | exact absurd (by decide) h

theorem exists_home_of_readsStmt {s : Stmt} {level : StmtKind} (hp : s.payload.definitions ≠ [])
    (hlevel : level ∈ NodeKind.lineage s.kind) (h : ctx.ReadsStmt s level) :
    ∃ level ∈ NodeKind.lineage s.kind, level ∈ s.payload.homes := by
  obtain ⟨n, hn⟩ := h
  by_cases hhome : level ∈ s.payload.homes
  · exact ⟨level, hlevel, hhome⟩
  · exact absurd (stmtLevel_eq_of_notMem_homes ctx n s hp hhome) hn

theorem exists_home_of_readsDecl {d : Decl} {level : DeclKind} (hp : d.payload.definitions ≠ [])
    (hlevel : level ∈ NodeKind.lineage d.kind) (h : ctx.ReadsDecl opts d level) :
    ∃ level ∈ NodeKind.lineage d.kind, d.payload.home? = some level := by
  obtain ⟨n, hn⟩ := h
  obtain ⟨home, hhome⟩ : ∃ home, d.payload.home? = some home := by
    cases hpayload : d.payload <;> rw [hpayload] at hp <;>
      first | exact ⟨_, rfl⟩ | exact absurd rfl hp
  by_cases hmem : home ∈ NodeKind.lineage level
  · exact ⟨home, NodeKind.mem_lineage_trans hlevel hmem, hhome⟩
  · exact absurd (declLevel_eq_of_notMem_lineage ctx opts n d hhome hmem) hn

theorem writtenInStmt_eq {s : Stmt}
    (hchildren : ∀ id, some id ∈ s.children → (ctx.stmt? id).isSome)
    (hread : s.payload.definitions ≠ [] → ∃ level ∈ NodeKind.lineage s.kind, ctx.ReadsStmt s level) :
    ctx.writtenInStmt s = Visit.stmts s.children ++ s.payload.definitions := by
  rw [writtenInStmt, ctx.writtenStmts_eq hchildren]
  by_cases hp : s.payload.definitions = []
  · rw [hp, ite_self]
  · obtain ⟨level, hlevel, hreads⟩ := hread hp
    rw [if_pos (exists_home_of_readsStmt ctx hp hlevel hreads)]

theorem keptChildren_eq : ∀ {ids : List DeclId},
    (∀ id ∈ ids, ∃ d, ctx.decl? id = some d ∧ opts.keeps ctx d = .ok true) →
      Layout.keptChildren ctx opts ids = .ok ids
  | [], _ => rfl
  | id :: ids, h => by
    obtain ⟨d, hd, hkeep⟩ := h id List.mem_cons_self
    have hrest := keptChildren_eq fun id' hid' => h id' (List.mem_cons_of_mem id hid')
    simp only [Layout.keptChildren, hd, hkeep, hrest, if_pos]

theorem writtenTypes_eq (h : ∀ t ∈ ctx.types, NodeKind.isAbstract t.kind = false) :
    ctx.writtenTypes = ctx.typeIds.map .type := by
  rw [typeIds_eq, writtenTypes, List.flatMap_def, List.flatMap_def]
  refine congrArg List.flatten (List.map_congr_left fun t ht => ?_)
  have hmem : t.1 ∈ ctx.types := Array.mem_toList_iff.mp (List.fst_mem_of_mem_zipIdx ht)
  rw [h t.1 hmem, if_neg Bool.false_ne_true]

theorem writtenInDecl_eq {d : Decl}
    (hchildren : d.kind.isDeclContext → ∀ id ∈ (d.context.getD {}).decls,
      ∃ child, ctx.decl? id = some child ∧ opts.keeps ctx child = .ok true)
    (htypes : d.kind = .translationUnit → ∀ t ∈ ctx.types, NodeKind.isAbstract t.kind = false)
    (hread : d.payload.definitions ≠ [] →
      ∃ level ∈ NodeKind.lineage d.kind, ctx.ReadsDecl opts d level) :
    ctx.writtenInDecl opts d = ctx.insideDecl d := by
  have hkept : (if d.kind.isDeclContext then ctx.writtenChildren opts d else [])
      = if d.kind.isDeclContext then (d.context.getD {}).decls.map .decl else [] := by
    split
    · next hcontext => rw [writtenChildren, keptChildren_eq ctx opts (hchildren hcontext)]
    · rfl
  have hconcrete : (if d.kind = .translationUnit then ctx.writtenTypes else [])
      = if d.kind = .translationUnit then ctx.typeIds.map .type else [] := by
    split
    · next hunit => rw [writtenTypes_eq ctx (htypes hunit)]
    · rfl
  have hdefinitions : (if ∃ level ∈ NodeKind.lineage d.kind, d.payload.home? = some level
      then d.payload.definitions else []) = d.payload.definitions := by
    by_cases hp : d.payload.definitions = []
    · rw [hp, ite_self]
    · obtain ⟨level, hlevel, hreads⟩ := hread hp
      rw [if_pos (exists_home_of_readsDecl ctx opts hp hlevel hreads)]
  rw [writtenInDecl, insideDecl, hkept, hconcrete, hdefinitions]

end Context

end SyntaxExport
