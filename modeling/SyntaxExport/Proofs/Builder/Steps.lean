import SyntaxExport.Proofs.Builder.Nodes

/-!
# Steps of builders

A small program logic for builders: `Build.Succeeds m b Q` says that the step `m` gives a result for the
builder `b`, that the builder it leads to is sound, with a context that has grown, and that `Q` holds
of the result and that context. Every step has its rule here. It asks for nothing but positions that
are in their arenas, and types and ranges of which that is true.
-/

namespace SyntaxExport

/-- What is kept between the steps of a builder. -/
structure Builder.Sound (b : Builder) : Prop where
  built : b.context.Built
  builtins : ∀ p ∈ b.builtins, b.context.Has (.type p.2)
  unit : ∃ d, b.context.decl? b.unit = some d ∧ d.kind = .translationUnit

/-- A sound builder whose context has grown from that of `b`. -/
structure Builder.Leads (b b' : Builder) : Prop where
  sound : b'.Sound
  grows : b.context.Grows b'.context

namespace Builder

variable {b b' b'' : Builder}

theorem Sound.leads (hb : b.Sound) : b.Leads b :=
  ⟨hb, .refl _⟩

theorem Leads.trans (h : b.Leads b') (h' : b'.Leads b'') : b.Leads b'' :=
  ⟨h'.sound, h.grows.trans h'.grows⟩

theorem Leads.has (h : b.Leads b') {v : Visit} (hv : b.context.Has v) : b'.context.Has v :=
  h.grows.has hv

theorem Sound.has_unit (hb : b.Sound) : b.context.Has (.decl b.unit) := by
  obtain ⟨d, hd, -⟩ := hb.unit
  exact Context.has_of_decl? hd

/-- A builder stays sound when its context grows and stays built. -/
theorem Sound.leads_of_grows (hb : b.Sound) {ctx : Context} (hbuilt : ctx.Built)
    (hgrows : b.context.Grows ctx) : b.Leads { b with context := ctx } where
  sound :=
    { built := hbuilt
      builtins := fun p hp => hgrows.has (hb.builtins p hp)
      unit := by
        obtain ⟨d, hd, hunit⟩ := hb.unit
        obtain ⟨d', hd', hkind⟩ := hgrows.kind b.unit d hd
        exact ⟨d', hd', hkind.trans hunit⟩ }
  grows := hgrows

/-- A builder stays sound when a builtin type is noted. -/
theorem Sound.leads_of_builtin (hb : b.Sound) {t : TypeId} (ht : b.context.Has (.type t))
    (kind : BuiltinKind) : b.Leads { b with builtins := (kind, t) :: b.builtins } where
  sound :=
    { built := hb.built
      builtins := List.forall_mem_cons.mpr ⟨ht, hb.builtins⟩
      unit := hb.unit }
  grows := .refl _

theorem new_eq (file : String) : new file =
    { context :=
        { files := #[file], decls := #[{ kind := .translationUnit, context := some {} }] }
      file := ⟨0⟩
      unit := ⟨0⟩ } := by
  simp [new, Context.addFile, Context.addDecl, FileId.ofSize, Id.ofSize]

theorem sound_new (file : String) : (new file).Sound := by
  rw [new_eq]
  refine ⟨⟨?_, by simp, by simp, rfl⟩, by simp, _, rfl, rfl⟩
  intro d hd
  rw [List.mem_toArray, List.mem_singleton] at hd
  subst hd
  exact ⟨.unit, Context.knowsRange_absent _, nofun, nofun, nofun, nofun, rfl, rfl⟩

end Builder

namespace Build

variable {α β : Type} {b : Builder}

/-- The step gives a result and leads to a sound builder, and what is asked of both holds. -/
def Succeeds (m : Build α) (b : Builder) (Q : α → Context → Prop) : Prop :=
  ∃ a b', m b = some (a, b') ∧ b.Leads b' ∧ Q a b'.context

/-! ### Rules -/

namespace Succeeds

variable {m : Build α} {Q : α → Context → Prop}

theorem pure (hb : b.Sound) {a : α} (hQ : Q a b.context) : Succeeds (Pure.pure a) b Q :=
  ⟨a, b, rfl, hb.leads, hQ⟩

theorem bind {f : α → Build β} {R : β → Context → Prop} (hm : Succeeds m b Q)
    (hf : ∀ a b', b.Leads b' → Q a b'.context → Succeeds (f a) b' R) : Succeeds (m >>= f) b R := by
  obtain ⟨a, b', hrun, hleads, hQ⟩ := hm
  obtain ⟨c, b'', hrun', hleads', hR⟩ := hf a b' hleads hQ
  refine ⟨c, b'', ?_, hleads.trans hleads', hR⟩
  show (m b >>= fun p => f p.1 p.2) = _
  rw [hrun]
  exact hrun'

theorem get_bind {f : Builder → Build β} {R : β → Context → Prop} (h : Succeeds (f b) b R) :
    Succeeds (get >>= f) b R :=
  h

/-- A list of steps, each of which succeeds wherever those before it lead. -/
theorem mapM {f : β → Build α} : ∀ {l : List β} {b : Builder}, b.Sound →
    (∀ x ∈ l, ∀ b', b.Leads b' → Succeeds (f x) b' fun _ _ => True) →
    Succeeds (l.mapM f) b fun _ _ => True
  | [], b, hb, _ => by
    rw [List.mapM_nil]
    exact pure hb trivial
  | x :: l, b, hb, h => by
    rw [List.mapM_cons]
    refine bind (h x List.mem_cons_self b hb.leads) fun a b₁ hb₁ _ => ?_
    refine bind (mapM hb₁.sound fun y hy b' hb' => h y (List.mem_cons_of_mem x hy) b' (hb₁.trans hb'))
      fun _ b₂ hb₂ _ => ?_
    exact pure hb₂.sound trivial

theorem forM {f : β → Build PUnit} : ∀ {l : List β} {b : Builder}, b.Sound →
    (∀ x ∈ l, ∀ b', b.Leads b' → Succeeds (f x) b' fun _ _ => True) →
    Succeeds (l.forM f) b fun _ _ => True
  | [], b, hb, _ => pure hb trivial
  | x :: l, b, hb, h => by
    show Succeeds (f x >>= fun _ => l.forM f) b _
    exact bind (h x List.mem_cons_self b hb.leads) fun _ b₁ hb₁ _ =>
      forM hb₁.sound fun y hy b' hb' => h y (List.mem_cons_of_mem x hy) b' (hb₁.trans hb')

end Succeeds

/-! ### Nodes -/

section Steps

variable (hb : b.Sound)
include hb

theorem succeeds_addDecl {d : Decl} (hd : d.Built b.context) :
    Succeeds (addDecl d) b fun id ctx => ctx.Has (.decl id) :=
  ⟨_, _, rfl, hb.leads_of_grows (hb.built.addDecl hd) (b.context.grows_addDecl d),
    Context.has_addDecl d⟩

theorem succeeds_addStmt {s : Stmt} (hs : s.Built b.context) :
    Succeeds (addStmt s) b fun id ctx => ctx.Has (.stmt id) :=
  ⟨_, _, rfl, hb.leads_of_grows (hb.built.addStmt hs) (b.context.grows_addStmt s),
    Context.has_addStmt s⟩

theorem succeeds_addType {t : TypeNode} (ht : t.Built) :
    Succeeds (addType t) b fun id ctx => ctx.Has (.type id) :=
  ⟨_, _, rfl, hb.leads_of_grows (hb.built.addType ht) (b.context.grows_addType t),
    Context.has_addType t⟩

theorem succeeds_getDecl {id : DeclId} (hid : b.context.Has (.decl id)) :
    Succeeds (getDecl id) b fun d ctx => d.Built ctx := by
  obtain ⟨d, hd⟩ := hid.exists_decl
  refine ⟨d, b, ?_, hb.leads, hb.built.of_decl? hd⟩
  show (b.context.decl? id >>= fun a => some (a, b)) = _
  rw [hd]
  rfl

theorem succeeds_getType {id : TypeId} (hid : b.context.Has (.type id)) :
    Succeeds (getType id) b fun _ _ => True := by
  obtain ⟨t, ht⟩ := hid.exists_type
  refine ⟨t, b, ?_, hb.leads, trivial⟩
  show (b.context.type? id >>= fun a => some (a, b)) = _
  rw [ht]
  rfl

theorem succeeds_updateDecl {id : DeclId} {f : Decl → Decl} (hid : b.context.Has (.decl id))
    (hkind : ∀ d, (f d).kind = d.kind) (hf : ∀ d, d.Built b.context → (f d).Built b.context) :
    Succeeds (updateDecl id f) b fun _ _ => True := by
  obtain ⟨d, hd⟩ := hid.exists_decl
  refine ⟨(), { b with context := b.context.modifyDecl id f }, ?_,
    hb.leads_of_grows (hb.built.modifyDecl id hkind hf) (b.context.grows_modifyDecl id hkind), trivial⟩
  show ((b.context.decl? id >>= fun a => some (a, b)) >>= fun p =>
    some ((), { p.2 with context := p.2.context.modifyDecl id f })) = _
  rw [hd]
  rfl

/-! ### Types -/

theorem succeeds_builtin (kind : BuiltinKind) :
    Succeeds (builtin kind) b fun t ctx => ctx.Has (.type t) := by
  refine .get_bind ?_
  split
  · next t hlookup =>
    obtain ⟨l, l', hl, -⟩ := List.lookup_eq_some_iff.mp hlookup
    exact .pure hb (hb.builtins (kind, t) (by simp [hl]))
  · refine .bind (succeeds_addType hb ⟨.builtin kind, rfl⟩) fun t b₁ hb₁ ht => ?_
    exact ⟨t, _, rfl, hb₁.sound.leads_of_builtin ht kind, ht⟩

theorem succeeds_pointerTo {pointee : TypeId} (hpointee : b.context.Has (.type pointee)) :
    Succeeds (pointerTo pointee) b fun t ctx => ctx.Has (.type t) := by
  refine .bind (succeeds_getType hb hpointee) fun node b₁ hb₁ _ => ?_
  exact succeeds_addType hb₁.sound ⟨.pointer pointee, rfl⟩

theorem succeeds_recordType {decl : DeclId} (hdecl : b.context.Has (.decl decl)) :
    Succeeds (recordType decl) b fun t ctx => ctx.Has (.type t) := by
  refine .bind (succeeds_getDecl hb hdecl) fun d b₁ hb₁ _ => ?_
  refine .bind (succeeds_addType hb₁.sound ⟨.record decl, rfl⟩) fun t b₂ hb₂ ht => ?_
  refine .bind (succeeds_updateDecl hb₂.sound (hb₂.has (hb₁.has hdecl)) (fun _ => rfl)
    fun d hd => hd.withDeclaredType ht) fun _ b₃ hb₃ _ => ?_
  exact .pure hb₃.sound (hb₃.has ht)

theorem succeeds_functionType {result : TypeId} {params : List TypeId}
    (hresult : b.context.Has (.type result)) (hparams : ∀ p ∈ params, b.context.Has (.type p)) :
    Succeeds (functionType result params) b fun t ctx => ctx.Has (.type t) := by
  have hname : ∀ p ∈ params, ∀ b', b.Leads b' →
      Succeeds (do return (← getType p).spelling) b' fun _ _ => True := by
    intro p hp b' hb'
    exact .bind (succeeds_getType hb'.sound (hb'.has (hparams p hp))) fun node b'' hb'' _ =>
      .pure hb''.sound trivial
  refine .bind (.mapM hb hname) fun names b₁ hb₁ _ => ?_
  refine .bind (succeeds_getType hb₁.sound (hb₁.has hresult)) fun node b₂ hb₂ _ => ?_
  exact succeeds_addType hb₂.sound ⟨.function _ _, rfl⟩

/-! ### Declarations -/

theorem succeeds_addToContext {parent child : DeclId} (hparent : b.context.Has (.decl parent))
    (hchild : b.context.Has (.decl child)) :
    Succeeds (addToContext parent child) b fun _ _ => True := by
  refine .bind (succeeds_updateDecl hb hparent (fun _ => rfl) fun d hd => hd.addChild hchild)
    fun _ b₁ hb₁ _ => ?_
  exact succeeds_updateDecl hb₁.sound (hb₁.has hchild) (fun _ => rfl) fun d hd => hd.withParent parent

theorem succeeds_declare {parent : DeclId} {d : Decl} (hparent : b.context.Has (.decl parent))
    (hd : d.Built b.context) : Succeeds (declare parent d) b fun id ctx => ctx.Has (.decl id) := by
  refine .bind (succeeds_addDecl hb hd) fun id b₁ hb₁ hid => ?_
  refine .bind (succeeds_addToContext hb₁.sound (hb₁.has hparent) hid) fun _ b₂ hb₂ _ => ?_
  exact .pure hb₂.sound (hb₂.has hid)

theorem succeeds_qualified {parent : DeclId} (hparent : b.context.Has (.decl parent)) (s : String) :
    Succeeds (qualified parent s) b fun _ _ => True :=
  .bind (succeeds_getDecl hb hparent) fun _ _ hb₁ _ => .pure hb₁.sound trivial

theorem succeeds_param (name : String) {type : QualType} {range : SourceRange}
    (htype : b.context.HasType type) (hrange : b.context.KnowsRange range) :
    Succeeds (param name type range) b fun id ctx => ctx.Has (.decl id) :=
  succeeds_addDecl hb (.ofValue .param hrange htype nofun)

theorem succeeds_localVar (name : String) {type : QualType} {init : Option StmtId}
    {range : SourceRange} (htype : b.context.HasType type)
    (hinit : ∀ s ∈ init, b.context.Has (.stmt s)) (hrange : b.context.KnowsRange range) :
    Succeeds (localVar name type init range) b fun id ctx => ctx.Has (.decl id) := by
  have hdefinitions : ∀ v ∈ (DeclPayload.var { init := init }).definitions, b.context.Has v := by
    simpa [DeclPayload.definitions, Visit.stmts] using hinit
  exact succeeds_addDecl hb (.ofValue (.var init) hrange htype hdefinitions)

theorem succeeds_var {parent : DeclId} (name : String) {type : QualType} {init : Option StmtId}
    {range : SourceRange} (hparent : b.context.Has (.decl parent)) (htype : b.context.HasType type)
    (hinit : ∀ s ∈ init, b.context.Has (.stmt s)) (hrange : b.context.KnowsRange range) :
    Succeeds (var parent name type init range) b fun id ctx => ctx.Has (.decl id) := by
  refine .bind (succeeds_localVar hb name htype hinit hrange) fun id b₁ hb₁ hid => ?_
  refine .bind (succeeds_addToContext hb₁.sound (hb₁.has hparent) hid) fun _ b₂ hb₂ _ => ?_
  have hparent₂ := hb₂.has (hb₁.has hparent)
  refine .bind (succeeds_qualified hb₂.sound hparent₂ name) fun declName b₃ hb₃ _ => ?_
  have hid₃ := hb₃.has (hb₂.has hid)
  refine .bind (succeeds_updateDecl hb₃.sound hid₃ (fun _ => rfl) fun d hd => hd.withName declName)
    fun _ b₄ hb₄ _ => ?_
  exact .pure hb₄.sound (hb₄.has hid₃)

theorem succeeds_function {parent : DeclId} (name : String) {type : TypeId} {params : List DeclId}
    {body : Option StmtId} {range : SourceRange} (hparent : b.context.Has (.decl parent))
    (htype : b.context.Has (.type type)) (hparams : ∀ p ∈ params, b.context.Has (.decl p))
    (hbody : ∀ s ∈ body, b.context.Has (.stmt s)) (hrange : b.context.KnowsRange range) :
    Succeeds (function parent name type params body range) b fun id ctx => ctx.Has (.decl id) := by
  refine .bind (succeeds_qualified hb hparent name) fun declName b₁ hb₁ _ => ?_
  have hdefinitions : ∀ v ∈ (DeclPayload.function { params := params, body := body }).definitions,
      b₁.context.Has v := by
    intro v hv
    have hboth : (∃ p ∈ params, .decl p = v) ∨ ∃ s, body = some s ∧ .stmt s = v := by
      simpa [DeclPayload.definitions, Visit.stmts] using hv
    rcases hboth with ⟨p, hp, rfl⟩ | ⟨s, hs, rfl⟩
    · exact hb₁.has (hparams p hp)
    · exact hb₁.has (hbody s hs)
  have hplain : b₁.context.HasType (QualType.plain type) := by
    rintro _ ⟨⟩
    exact hb₁.has htype
  refine .bind (succeeds_declare hb₁.sound (hb₁.has hparent)
    (.ofValue (.function params body) (hb₁.grows.knowsRange hrange) hplain hdefinitions))
    fun id b₂ hb₂ hid => ?_
  have hattach : ∀ p ∈ params, ∀ b', b₂.Leads b' →
      Succeeds (updateDecl p (·.withParent id)) b' fun _ _ => True := fun p hp b' hb' =>
    succeeds_updateDecl hb'.sound (hb'.has (hb₂.has (hb₁.has (hparams p hp)))) (fun _ => rfl)
      fun d hd => hd.withParent id
  refine .bind (.forM hb₂.sound hattach) fun _ b₃ hb₃ _ => ?_
  exact .pure hb₃.sound (hb₃.has hid)

theorem succeeds_record {parent : DeclId} (name : String) {range : SourceRange}
    (hparent : b.context.Has (.decl parent)) (hrange : b.context.KnowsRange range) :
    Succeeds (record parent name range) b fun r ctx => ctx.Has (.decl r.1) ∧ ctx.Has (.type r.2) := by
  refine .bind (succeeds_qualified hb hparent name) fun declName b₁ hb₁ _ => ?_
  refine .bind (succeeds_declare hb₁.sound (hb₁.has hparent)
    ⟨.record, hb₁.grows.knowsRange hrange, nofun, nofun, nofun, nofun, rfl, rfl⟩)
    fun id b₂ hb₂ hid => ?_
  refine .bind (succeeds_recordType hb₂.sound hid) fun t b₃ hb₃ ht => ?_
  exact .pure hb₃.sound ⟨hb₃.has hid, ht⟩

theorem succeeds_field {parent : DeclId} (name : String) {type : QualType} {range : SourceRange}
    (hparent : b.context.Has (.decl parent)) (htype : b.context.HasType type)
    (hrange : b.context.KnowsRange range) :
    Succeeds (field parent name type range) b fun id ctx => ctx.Has (.decl id) := by
  refine .bind (succeeds_qualified hb hparent name) fun declName b₁ hb₁ _ => ?_
  exact succeeds_declare hb₁.sound (hb₁.has hparent)
    (.ofValue .field (hb₁.grows.knowsRange hrange) (hb₁.grows.hasType htype) nofun)

/-! ### Statements -/

theorem succeeds_compound {children : List StmtId} {range : SourceRange}
    (hchildren : ∀ c ∈ children, b.context.Has (.stmt c)) (hrange : b.context.KnowsRange range) :
    Succeeds (compound children range) b fun id ctx => ctx.Has (.stmt id) := by
  refine succeeds_addStmt hb ⟨.compound, hrange, ?_, nofun, nofun, nofun⟩
  simpa using hchildren

theorem succeeds_returnStmt {value : Option StmtId} {range : SourceRange}
    (hvalue : ∀ s ∈ value, b.context.Has (.stmt s)) (hrange : b.context.KnowsRange range) :
    Succeeds (returnStmt value range) b fun id ctx => ctx.Has (.stmt id) := by
  refine succeeds_addStmt hb ⟨.returnStmt, hrange, fun s hs => ?_, nofun, nofun, nofun⟩
  exact hvalue s (List.mem_singleton.mp hs).symm

theorem succeeds_declStmt {decls : List DeclId} {range : SourceRange}
    (hdecls : ∀ d ∈ decls, b.context.Has (.decl d)) (hrange : b.context.KnowsRange range) :
    Succeeds (declStmt decls range) b fun id ctx => ctx.Has (.stmt id) := by
  refine succeeds_addStmt hb ⟨.declStmt decls, hrange, nofun, ?_, nofun, nofun⟩
  simpa [StmtPayload.definitions] using hdecls

theorem succeeds_intLiteral (value : Int) {range : SourceRange}
    (hrange : b.context.KnowsRange range) :
    Succeeds (intLiteral value range) b fun id ctx => ctx.Has (.stmt id) := by
  refine .bind (succeeds_builtin hb .int) fun t b₁ hb₁ ht => ?_
  refine succeeds_addStmt hb₁.sound ⟨.intLiteral _ _ _ _, hb₁.grows.knowsRange hrange, nofun, nofun,
    nofun, ?_⟩
  rintro _ ⟨⟩ _ ⟨⟩
  exact ht

theorem succeeds_declRef {decl : DeclId} {range : SourceRange}
    (hdecl : b.context.Has (.decl decl)) (hrange : b.context.KnowsRange range) :
    Succeeds (declRef decl range) b fun id ctx => ctx.Has (.stmt id) := by
  refine .bind (succeeds_getDecl hb hdecl) fun d b₁ hb₁ hd => ?_
  refine succeeds_addStmt hb₁.sound ⟨.declRef _ decl, hb₁.grows.knowsRange hrange, nofun, nofun, ?_, ?_⟩
  · intro id hid
    exact List.mem_singleton.mp hid ▸ hb₁.has hdecl
  · rintro _ ⟨⟩
    exact hd.hasType

theorem succeeds_binary (opcode : BinaryOpcode) {lhs rhs : StmtId} {type : QualType}
    {range : SourceRange} (hlhs : b.context.Has (.stmt lhs)) (hrhs : b.context.Has (.stmt rhs))
    (htype : b.context.HasType type) (hrange : b.context.KnowsRange range) :
    Succeeds (binary opcode lhs rhs type range) b fun id ctx => ctx.Has (.stmt id) := by
  refine succeeds_addStmt hb ⟨.binary _ opcode, hrange, ?_, nofun, nofun, ?_⟩
  · simp [hlhs, hrhs]
  · rintro _ ⟨⟩
    exact htype

end Steps

end Build

end SyntaxExport
