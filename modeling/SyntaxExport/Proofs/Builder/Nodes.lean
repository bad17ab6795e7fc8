import SyntaxExport.Ast.Builder
import SyntaxExport.Proofs.Pass.Sound
import SyntaxExport.Proofs.Walk.Reach

/-!
# Nodes that builders make

A builder makes nodes of a few shapes only (`DeclShape`, `StmtShape`, `TypeShape`), and each has the
payload that the levels of its kind read. A context is built if its nodes have these shapes and name
only what is in its arenas (`Context.Built`). A context that grows keeps what is in its arenas
(`Context.Grows`), so it stays built when a node is appended or a declaration is changed.
-/

namespace SyntaxExport

/-! ### Arenas -/

theorem Id.toNat_ofSize_lt {a : Arena} (n : Nat) : (Id.ofSize n : Id a).toNat < n + 1 := by
  rw [toNat, ofSize, UInt32.toNat_ofNat']
  exact Nat.lt_succ_of_le (Nat.mod_le n _)

namespace Context

variable {ctx ctx' ctx'' : Context}

theorem has_decl {id : DeclId} : ctx.Has (.decl id) ↔ id.toNat < ctx.decls.size := by
  simp [Has, inside?, decl?]

theorem has_stmt {id : StmtId} : ctx.Has (.stmt id) ↔ id.toNat < ctx.stmts.size := by
  simp [Has, inside?, stmt?]

theorem has_type {id : TypeId} : ctx.Has (.type id) ↔ id.toNat < ctx.types.size := by
  simp [Has, inside?, type?]

theorem has_comment {id : CommentId} :
    ctx.Has (.comment id) ↔ id.toNat < ctx.comments.size := by
  simp [Has, inside?, comment?]

/-- The type of a qualified type is absent or in its arena. -/
def HasType (ctx : Context) (q : QualType) : Prop :=
  ∀ t ∈ q.type, ctx.Has (.type t)

theorem Has.exists_decl {id : DeclId} (h : ctx.Has (.decl id)) : ∃ d, ctx.decl? id = some d :=
  ⟨_, Array.getElem?_eq_getElem (has_decl.mp h)⟩

theorem Has.exists_stmt {id : StmtId} (h : ctx.Has (.stmt id)) : ∃ s, ctx.stmt? id = some s :=
  ⟨_, Array.getElem?_eq_getElem (has_stmt.mp h)⟩

theorem Has.exists_type {id : TypeId} (h : ctx.Has (.type id)) : ∃ t, ctx.type? id = some t :=
  ⟨_, Array.getElem?_eq_getElem (has_type.mp h)⟩

/-! ### Growth -/

/-- Nothing leaves its arena, declarations keep their kinds, and the files stay. -/
structure Grows (ctx ctx' : Context) : Prop where
  files : ctx'.files = ctx.files
  kind : ∀ id d, ctx.decl? id = some d → ∃ d', ctx'.decl? id = some d' ∧ d'.kind = d.kind
  stmts : ctx.stmts.size ≤ ctx'.stmts.size
  types : ctx.types.size ≤ ctx'.types.size
  comments : ctx.comments.size ≤ ctx'.comments.size

namespace Grows

theorem refl (ctx : Context) : ctx.Grows ctx :=
  ⟨rfl, fun _ d hd => ⟨d, hd, rfl⟩, Nat.le_refl _, Nat.le_refl _, Nat.le_refl _⟩

theorem trans (h : ctx.Grows ctx') (h' : ctx'.Grows ctx'') : ctx.Grows ctx'' where
  files := h'.files.trans h.files
  kind := by
    intro id d hd
    obtain ⟨d', hd', hkind⟩ := h.kind id d hd
    obtain ⟨d'', hd'', hkind'⟩ := h'.kind id d' hd'
    exact ⟨d'', hd'', hkind'.trans hkind⟩
  stmts := Nat.le_trans h.stmts h'.stmts
  types := Nat.le_trans h.types h'.types
  comments := Nat.le_trans h.comments h'.comments

theorem has (h : ctx.Grows ctx') {v : Visit} (hv : ctx.Has v) : ctx'.Has v := by
  cases v with
  | decl id =>
    obtain ⟨d, hd⟩ := hv.exists_decl
    obtain ⟨d', hd', -⟩ := h.kind id d hd
    exact has_of_decl? hd'
  | stmt id => exact has_stmt.mpr (Nat.lt_of_lt_of_le (has_stmt.mp hv) h.stmts)
  | type id => exact has_type.mpr (Nat.lt_of_lt_of_le (has_type.mp hv) h.types)
  | comment id => exact has_comment.mpr (Nat.lt_of_lt_of_le (has_comment.mp hv) h.comments)

theorem hasType (h : ctx.Grows ctx') {q : QualType} (hq : ctx.HasType q) : ctx'.HasType q :=
  fun t ht => h.has (hq t ht)

theorem knowsRange (h : ctx.Grows ctx') {r : SourceRange} (hr : ctx.KnowsRange r) :
    ctx'.KnowsRange r := by
  simp only [KnowsRange, fileName?, h.files]
  exact hr

end Grows

variable (ctx)

theorem grows_addDecl (d : Decl) : ctx.Grows (ctx.addDecl d).2 where
  files := rfl
  kind := by
    intro id e he
    have hlt : id.toNat < ctx.decls.size := (Array.getElem?_eq_some_iff.mp he).1
    refine ⟨e, ?_, rfl⟩
    rw [← he, decl?, addDecl, Array.getElem?_push_lt hlt]
    exact (Array.getElem?_eq_getElem hlt).symm
  stmts := Nat.le_refl _
  types := Nat.le_refl _
  comments := Nat.le_refl _

theorem grows_addStmt (s : Stmt) : ctx.Grows (ctx.addStmt s).2 where
  files := rfl
  kind := fun _ d hd => ⟨d, hd, rfl⟩
  stmts := by simp [addStmt]
  types := Nat.le_refl _
  comments := Nat.le_refl _

theorem grows_addType (t : TypeNode) : ctx.Grows (ctx.addType t).2 where
  files := rfl
  kind := fun _ d hd => ⟨d, hd, rfl⟩
  stmts := Nat.le_refl _
  types := by simp [addType]
  comments := Nat.le_refl _

theorem decl?_modifyDecl (id id' : DeclId) (f : Decl → Decl) : (ctx.modifyDecl id f).decl? id'
    = (ctx.decl? id').map fun d => if id = id' then f d else d := by
  rw [decl?, modifyDecl, Array.getElem?_modify]
  by_cases h : id = id'
  · simp [h, decl?]
  · have hne : id.toNat ≠ id'.toNat := fun hindex => h (Id.eq_of_toNat hindex)
    simp [h, hne, decl?]

theorem grows_modifyDecl (id : DeclId) {f : Decl → Decl} (hf : ∀ d, (f d).kind = d.kind) :
    ctx.Grows (ctx.modifyDecl id f) where
  files := rfl
  kind := by
    intro id' d hd
    refine ⟨if id = id' then f d else d, by rw [decl?_modifyDecl, hd]; rfl, ?_⟩
    split
    · exact hf d
    · rfl
  stmts := Nat.le_refl _
  types := Nat.le_refl _
  comments := Nat.le_refl _

variable {ctx}

theorem has_addDecl (d : Decl) : (ctx.addDecl d).2.Has (.decl (ctx.addDecl d).1) :=
  has_decl.mpr (by simpa [addDecl] using Id.toNat_ofSize_lt ctx.decls.size)

theorem has_addStmt (s : Stmt) : (ctx.addStmt s).2.Has (.stmt (ctx.addStmt s).1) :=
  has_stmt.mpr (by simpa [addStmt] using Id.toNat_ofSize_lt ctx.stmts.size)

theorem has_addType (t : TypeNode) : (ctx.addType t).2.Has (.type (ctx.addType t).1) :=
  has_type.mpr (by simpa [addType] using Id.toNat_ofSize_lt ctx.types.size)

end Context

/-! ### Shapes -/

/-- The kinds of declarations that a builder makes, with the payloads they get. -/
inductive DeclShape : DeclKind → DeclPayload → Prop where
  | unit : DeclShape .translationUnit .empty
  | param : DeclShape .parmVar (.var {})
  | var (init : Option StmtId) : DeclShape .var (.var { init := init })
  | function (params : List DeclId) (body : Option StmtId) :
    DeclShape .function (.function { params := params, body := body })
  | record : DeclShape .record (.record { isCompleteDefinition := true })
  | field : DeclShape .field (.field {})

/-- The kinds of statements that a builder makes, with the facets and payloads they get. -/
inductive StmtShape : StmtKind → Option ExprInfo → StmtPayload → Prop where
  | compound : StmtShape .compoundStmt none .empty
  | returnStmt : StmtShape .returnStmt none .empty
  | declStmt (decls : List DeclId) : StmtShape .declStmt none (.decls decls)
  | intLiteral (e : ExprInfo) (isSigned : Bool) (bitwidth : Nat) (value : String) :
    StmtShape .integerLiteral (some e) (.integerLiteral isSigned bitwidth value)
  | declRef (e : ExprInfo) (decl : DeclId) :
    StmtShape .declRefExpr (some e) (.declRef (some decl) none)
  | binary (e : ExprInfo) (opcode : BinaryOpcode) :
    StmtShape .binaryOperator (some e) (.binary opcode none)

/-- The kinds of types that a builder makes, with the payloads they get. -/
inductive TypeShape : TypeKind → TypePayload → Prop where
  | builtin (kind : BuiltinKind) : TypeShape .builtin (.builtin kind)
  | pointer (pointee : TypeId) : TypeShape .pointer (.child (some pointee))
  | record (decl : DeclId) : TypeShape .record (.tag decl)
  | function (result : Option TypeId) (params : Option (List (Option TypeId))) :
    TypeShape .functionProto (.function result params)

/-- The declarations that a payload mentions. -/
def StmtPayload.references : StmtPayload → List DeclId
  | .declRef decl found => decl.toList ++ found.toList
  | _ => []

/-! ### Built nodes -/

/-- A declaration as a builder makes it, for a context that has what it names. -/
structure Decl.Built (ctx : Context) (d : Decl) : Prop where
  shape : DeclShape d.kind d.payload
  range : ctx.KnowsRange d.range
  children : ∀ id ∈ (d.context.getD {}).decls, ctx.Has (.decl id)
  definitions : ∀ v ∈ d.payload.definitions, ctx.Has v
  valueType : ∀ q ∈ d.valueType, ctx.HasType q
  declaredType : ∀ t ∈ d.typeForDecl, ctx.Has (.type t)
  attrs : d.attrs = []
  fullComment : d.fullComment = none

/-- A statement as a builder makes it, for a context that has what it names. -/
structure Stmt.Built (ctx : Context) (s : Stmt) : Prop where
  shape : StmtShape s.kind s.expr s.payload
  range : ctx.KnowsRange s.range
  children : ∀ id, some id ∈ s.children → ctx.Has (.stmt id)
  definitions : ∀ v ∈ s.payload.definitions, ctx.Has v
  references : ∀ id ∈ s.payload.references, ctx.Has (.decl id)
  type : ∀ e ∈ s.expr, ctx.HasType e.type

/-- A type as a builder makes it. -/
structure TypeNode.Built (t : TypeNode) : Prop where
  shape : TypeShape t.kind t.payload
  desugared : t.desugared = none

/-- A context that a builder makes. -/
structure Context.Built (ctx : Context) : Prop where
  decls : ∀ d ∈ ctx.decls, d.Built ctx
  stmts : ∀ s ∈ ctx.stmts, s.Built ctx
  types : ∀ t ∈ ctx.types, t.Built
  comments : ctx.comments = #[]

section Growth

variable {ctx ctx' : Context}

theorem Decl.Built.mono {d : Decl} (h : d.Built ctx) (hgrows : ctx.Grows ctx') : d.Built ctx' where
  shape := h.shape
  range := hgrows.knowsRange h.range
  children := fun id hid => hgrows.has (h.children id hid)
  definitions := fun v hv => hgrows.has (h.definitions v hv)
  valueType := fun q hq => hgrows.hasType (h.valueType q hq)
  declaredType := fun t ht => hgrows.has (h.declaredType t ht)
  attrs := h.attrs
  fullComment := h.fullComment

theorem Stmt.Built.mono {s : Stmt} (h : s.Built ctx) (hgrows : ctx.Grows ctx') : s.Built ctx' where
  shape := h.shape
  range := hgrows.knowsRange h.range
  children := fun id hid => hgrows.has (h.children id hid)
  definitions := fun v hv => hgrows.has (h.definitions v hv)
  references := fun id hid => hgrows.has (h.references id hid)
  type := fun e he => hgrows.hasType (h.type e he)

namespace Decl.Built

variable {d : Decl} {id : DeclId}

/-- A new value without children. -/
theorem ofValue {k : DeclKind} {p : DeclPayload} {range : SourceRange} {n : Option DeclName}
    {q : QualType} (hshape : DeclShape k p) (hrange : ctx.KnowsRange range) (hq : ctx.HasType q)
    (hp : ∀ v ∈ p.definitions, ctx.Has v) :
    Built ctx { kind := k, range := range, name := n, valueType := some q, payload := p } where
  shape := hshape
  range := hrange
  children := nofun
  definitions := hp
  valueType := by
    rintro _ ⟨⟩
    exact hq
  declaredType := nofun
  attrs := rfl
  fullComment := rfl

/-- The type of a declaration, null for one that is no value. -/
theorem hasType (h : d.Built ctx) : ctx.HasType (d.valueType.getD QualType.null) := by
  cases hq : d.valueType with
  | none => exact nofun
  | some q => exact h.valueType q hq

/-- What a declaration says of its parents may be anything. -/
theorem withParent (h : d.Built ctx) (parent : DeclId) : (d.withParent parent).Built ctx :=
  ⟨h.shape, h.range, h.children, h.definitions, h.valueType, h.declaredType, h.attrs, h.fullComment⟩

theorem withName (h : d.Built ctx) (n : DeclName) : Built ctx { d with name := some n } :=
  ⟨h.shape, h.range, h.children, h.definitions, h.valueType, h.declaredType, h.attrs, h.fullComment⟩

theorem withDeclaredType (h : d.Built ctx) {t : TypeId} (ht : ctx.Has (.type t)) :
    Built ctx { d with typeForDecl := some t } where
  __ := h
  declaredType := by
    rintro _ ⟨⟩
    exact ht

theorem addChild (h : d.Built ctx) (hid : ctx.Has (.decl id)) : (d.addChild id).Built ctx where
  __ := h
  children := by
    intro c hc
    rcases List.mem_append.mp hc with hc | hc
    · exact h.children c hc
    · exact List.mem_singleton.mp hc ▸ hid

end Decl.Built

namespace Context.Built

variable (h : ctx.Built)
include h

theorem of_decl? {id : DeclId} {d : Decl} (hd : ctx.decl? id = some d) : d.Built ctx :=
  h.decls d (Array.mem_of_getElem? hd)

theorem of_stmt? {id : StmtId} {s : Stmt} (hs : ctx.stmt? id = some s) : s.Built ctx :=
  h.stmts s (Array.mem_of_getElem? hs)

theorem of_type? {id : TypeId} {t : TypeNode} (ht : ctx.type? id = some t) : t.Built :=
  h.types t (Array.mem_of_getElem? ht)

theorem addDecl {d : Decl} (hd : d.Built ctx) : (ctx.addDecl d).2.Built where
  decls := by
    intro e he
    refine Decl.Built.mono ?_ (grows_addDecl ctx d)
    rcases Array.mem_push.mp he with he | rfl
    · exact h.decls e he
    · exact hd
  stmts := fun s hs => (h.stmts s hs).mono (grows_addDecl ctx d)
  types := h.types
  comments := h.comments

theorem addStmt {s : Stmt} (hs : s.Built ctx) : (ctx.addStmt s).2.Built where
  decls := fun d hd => (h.decls d hd).mono (grows_addStmt ctx s)
  stmts := by
    intro u hu
    refine Stmt.Built.mono ?_ (grows_addStmt ctx s)
    rcases Array.mem_push.mp hu with hu | rfl
    · exact h.stmts u hu
    · exact hs
  types := h.types
  comments := h.comments

theorem addType {t : TypeNode} (ht : t.Built) : (ctx.addType t).2.Built where
  decls := fun d hd => (h.decls d hd).mono (grows_addType ctx t)
  stmts := fun s hs => (h.stmts s hs).mono (grows_addType ctx t)
  types := by
    intro u hu
    rcases Array.mem_push.mp hu with hu | rfl
    · exact h.types u hu
    · exact ht
  comments := h.comments

theorem modifyDecl (id : DeclId) {f : Decl → Decl} (hkind : ∀ d, (f d).kind = d.kind)
    (hf : ∀ d, d.Built ctx → (f d).Built ctx) : (ctx.modifyDecl id f).Built where
  decls := by
    intro e he
    refine Decl.Built.mono ?_ (grows_modifyDecl ctx id hkind)
    obtain ⟨i, hi⟩ := Array.mem_iff_getElem?.mp he
    rw [Context.modifyDecl, Array.getElem?_modify] at hi
    split at hi
    · obtain ⟨d, hd, rfl⟩ := Option.map_eq_some_iff.mp hi
      exact hf d (h.decls d (Array.mem_of_getElem? hd))
    · exact h.decls e (Array.mem_of_getElem? hi)
  stmts := fun s hs => (h.stmts s hs).mono (grows_modifyDecl ctx id hkind)
  types := h.types
  comments := h.comments

/-! ### What is held -/

/-- What is defined inside a node is in its arena. -/
theorem has_of_holds {v w : Visit} (hholds : ctx.Holds v w) : ctx.Has w := by
  obtain ⟨inner, hinner, hw⟩ := id hholds
  cases v with
  | decl id =>
    obtain ⟨d, hd, rfl⟩ := Option.map_eq_some_iff.mp hinner
    have hbuilt := h.of_decl? hd
    simp only [insideDecl, hbuilt.fullComment, Option.toList_none, List.map_nil, List.nil_append,
      List.mem_append] at hw
    rcases hw with (hchild | htype) | hdefinition
    · split at hchild
      · obtain ⟨c, hc, rfl⟩ := List.mem_map.mp hchild
        exact hbuilt.children c hc
      · cases hchild
    · split at htype
      · obtain ⟨t, -, rfl⟩ := List.mem_map.mp htype
        rw [Has, inside?, Option.isSome_map]
        exact isSome_type?_of_holds hholds
      · cases htype
    · exact hbuilt.definitions w hdefinition
  | stmt id =>
    obtain ⟨s, hs, rfl⟩ := Option.map_eq_some_iff.mp hinner
    have hbuilt := h.of_stmt? hs
    rcases List.mem_append.mp hw with hchild | hdefinition
    · obtain ⟨c, hc, hv⟩ := List.mem_filterMap.mp hchild
      obtain ⟨id, rfl, rfl⟩ := Option.map_eq_some_iff.mp hv
      exact hbuilt.children id hc
    · exact hbuilt.definitions w hdefinition
  | type id =>
    obtain ⟨t, -, rfl⟩ := Option.map_eq_some_iff.mp hinner
    cases hw
  | comment id =>
    rw [inside?, comment?, h.comments] at hinner
    cases hinner

/-- What is reached from a node is in its arena. -/
theorem has_of_reach {v w : Visit} (hv : ctx.Has v) (hw : Relation.ReflTransGen ctx.Holds v w) :
    ctx.Has w := by
  rcases Relation.ReflTransGen.cases_tail hw with rfl | ⟨u, -, hstep⟩
  · exact hv
  · exact h.has_of_holds hstep

end Context.Built

end Growth

end SyntaxExport
