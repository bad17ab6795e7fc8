import SyntaxExport.Proofs.Builder.Layouts
import SyntaxExport.Proofs.Builder.Positions
import SyntaxExport.Proofs.Builder.Steps
import SyntaxExport.Proofs.Index

/-!
# Translation units that builders make

A caller of a builder has no nodes but those that earlier calls returned to it, and the translation
unit. It may nest and share them as it likes, and give a node a parent that is no context, or several
parents. Whatever it does, every call succeeds as long as there are positions for the nodes, and the unit
can be written and indexed unless a node is defined inside itself (`Construction.acyclic_units_export`).

Each call keeps the builder sound (`BuilderCall.succeeds`), so every list of calls does
(`Construction.Sound.exists_calls`). What a sound builder has made is a built context, whose layouts are
sound.
-/

namespace SyntaxExport

open Relation (ReflTransGen)
open ScopedWriter (scopes Reliable)

/-! ### Calls -/

/-- A call of a builder. -/
inductive BuilderCall where
  | builtin (kind : BuiltinKind)
  | pointerTo (pointee : TypeId)
  | recordType (decl : DeclId)
  | functionType (result : TypeId) (params : List TypeId)
  | param (name : String) (type : QualType) (range : SourceRange)
  | function (parent : DeclId) (name : String) (type : TypeId) (params : List DeclId)
    (body : Option StmtId) (range : SourceRange)
  | var (parent : DeclId) (name : String) (type : QualType) (init : Option StmtId)
    (range : SourceRange)
  | localVar (name : String) (type : QualType) (init : Option StmtId) (range : SourceRange)
  | record (parent : DeclId) (name : String) (range : SourceRange)
  | field (parent : DeclId) (name : String) (type : QualType) (range : SourceRange)
  | compound (children : List StmtId) (range : SourceRange)
  | returnStmt (value : Option StmtId) (range : SourceRange)
  | declStmt (decls : List DeclId) (range : SourceRange)
  | intLiteral (value : Int) (range : SourceRange)
  | declRef (decl : DeclId) (range : SourceRange)
  | binary (opcode : BinaryOpcode) (lhs rhs : StmtId) (type : QualType) (range : SourceRange)
  | addToContext (parent child : DeclId)
  deriving DecidableEq, Repr

namespace BuilderCall

/-- The type of a qualified type, if it has one. -/
def typeArgument (q : QualType) : List Visit :=
  q.type.toList.map .type

/-- The nodes that a call is given. -/
def arguments : BuilderCall → List Visit
  | .builtin _ => []
  | .pointerTo pointee => [.type pointee]
  | .recordType decl => [.decl decl]
  | .functionType result params => .type result :: params.map .type
  | .param _ type _ => typeArgument type
  | .function parent _ type params body _ =>
    .decl parent :: .type type :: (params.map .decl ++ body.toList.map .stmt)
  | .var parent _ type init _ => .decl parent :: (typeArgument type ++ init.toList.map .stmt)
  | .localVar _ type init _ => typeArgument type ++ init.toList.map .stmt
  | .record parent _ _ => [.decl parent]
  | .field parent _ type _ => .decl parent :: typeArgument type
  | .compound children _ => children.map .stmt
  | .returnStmt value _ => value.toList.map .stmt
  | .declStmt decls _ => decls.map .decl
  | .intLiteral _ _ => []
  | .declRef decl _ => [.decl decl]
  | .binary _ lhs rhs type _ => .stmt lhs :: .stmt rhs :: typeArgument type
  | .addToContext parent child => [.decl parent, .decl child]

/-- The range that a call is given, absent for a call without one. -/
def range : BuilderCall → SourceRange
  | .param _ _ r | .function _ _ _ _ _ r | .var _ _ _ _ r | .localVar _ _ _ r | .record _ _ r
  | .field _ _ _ r | .compound _ r | .returnStmt _ r | .declStmt _ r | .intLiteral _ r | .declRef _ r
  | .binary _ _ _ _ r => r
  | .builtin _ | .pointerTo _ | .recordType _ | .functionType _ _ | .addToContext _ _ => .absent

/-- The step of a call, which returns nodes to the caller. -/
def perform : BuilderCall → Build (List Visit)
  | .builtin kind => do return [.type (← Build.builtin kind)]
  | .pointerTo pointee => do return [.type (← Build.pointerTo pointee)]
  | .recordType decl => do return [.type (← Build.recordType decl)]
  | .functionType result params => do return [.type (← Build.functionType result params)]
  | .param name type range => do return [.decl (← Build.param name type range)]
  | .function parent name type params body range => do
    return [.decl (← Build.function parent name type params body range)]
  | .var parent name type init range => do return [.decl (← Build.var parent name type init range)]
  | .localVar name type init range => do return [.decl (← Build.localVar name type init range)]
  | .record parent name range => do
    let (decl, type) ← Build.record parent name range
    return [.decl decl, .type type]
  | .field parent name type range => do return [.decl (← Build.field parent name type range)]
  | .compound children range => do return [.stmt (← Build.compound children range)]
  | .returnStmt value range => do return [.stmt (← Build.returnStmt value range)]
  | .declStmt decls range => do return [.stmt (← Build.declStmt decls range)]
  | .intLiteral value range => do return [.stmt (← Build.intLiteral value range)]
  | .declRef decl range => do return [.stmt (← Build.declRef decl range)]
  | .binary opcode lhs rhs type range => do
    return [.stmt (← Build.binary opcode lhs rhs type range)]
  | .addToContext parent child => do
    Build.addToContext parent child
    return []

/-- The call is given only nodes among `handles`, and a range in files of the context. -/
structure Admissible (ctx : Context) (handles : List Visit) (c : BuilderCall) : Prop where
  arguments : ∀ v ∈ c.arguments, v ∈ handles
  range : ctx.KnowsRange c.range

instance (ctx : Context) (handles : List Visit) (c : BuilderCall) :
    Decidable (c.Admissible ctx handles) :=
  decidable_of_iff ((∀ v ∈ c.arguments, v ∈ handles) ∧ ctx.KnowsRange c.range)
    ⟨fun h => ⟨h.1, h.2⟩, fun h => ⟨h.arguments, h.range⟩⟩

theorem forall_mem_typeArgument {ctx : Context} {q : QualType} :
    (∀ v ∈ typeArgument q, ctx.Has v) ↔ ctx.HasType q := by
  simp [typeArgument, Context.HasType]

/-- A step that returns one node. -/
theorem succeeds_one {α : Type} {m : Build α} {b : Builder} {node : α → Visit}
    (h : Build.Succeeds m b fun a ctx => ctx.Has (node a)) :
    Build.Succeeds (do return [node (← m)]) b fun handles ctx => ∀ v ∈ handles, ctx.Has v :=
  .bind h fun _ _ hleads ha => .pure hleads.sound (List.forall_mem_singleton.mpr ha)

/-- A call that is given nodes in their arenas and a known range succeeds, and what it returns is in its
arena. -/
theorem succeeds {b : Builder} (hb : b.Sound) {c : BuilderCall}
    (harguments : ∀ v ∈ c.arguments, b.context.Has v) (hrange : b.context.KnowsRange c.range) :
    Build.Succeeds c.perform b fun handles ctx => ∀ v ∈ handles, ctx.Has v := by
  cases c <;> simp only [arguments, List.forall_mem_cons, List.forall_mem_append,
    List.forall_mem_map, Option.mem_toList, forall_mem_typeArgument] at harguments
  case builtin kind => exact succeeds_one (Build.succeeds_builtin hb kind)
  case pointerTo pointee => exact succeeds_one (Build.succeeds_pointerTo hb harguments.1)
  case recordType decl => exact succeeds_one (Build.succeeds_recordType hb harguments.1)
  case functionType result params =>
    obtain ⟨hresult, hparams⟩ := harguments
    exact succeeds_one (Build.succeeds_functionType hb hresult hparams)
  case param name type range => exact succeeds_one (Build.succeeds_param hb name harguments hrange)
  case function parent name type params body range =>
    obtain ⟨hparent, htype, hparams, hbody⟩ := harguments
    exact succeeds_one (Build.succeeds_function hb name hparent htype hparams hbody hrange)
  case var parent name type init range =>
    obtain ⟨hparent, htype, hinit⟩ := harguments
    exact succeeds_one (Build.succeeds_var hb name hparent htype hinit hrange)
  case localVar name type init range =>
    obtain ⟨htype, hinit⟩ := harguments
    exact succeeds_one (Build.succeeds_localVar hb name htype hinit hrange)
  case record parent name range =>
    refine .bind (Build.succeeds_record hb name harguments.1 hrange) fun r b₁ hb₁ hr => ?_
    exact .pure hb₁.sound (List.forall_mem_cons.mpr ⟨hr.1, List.forall_mem_singleton.mpr hr.2⟩)
  case field parent name type range =>
    obtain ⟨hparent, htype⟩ := harguments
    exact succeeds_one (Build.succeeds_field hb name hparent htype hrange)
  case compound children range => exact succeeds_one (Build.succeeds_compound hb harguments hrange)
  case returnStmt value range => exact succeeds_one (Build.succeeds_returnStmt hb harguments hrange)
  case declStmt decls range => exact succeeds_one (Build.succeeds_declStmt hb harguments hrange)
  case intLiteral value range => exact succeeds_one (Build.succeeds_intLiteral hb value hrange)
  case declRef decl range => exact succeeds_one (Build.succeeds_declRef hb harguments.1 hrange)
  case binary opcode lhs rhs type range =>
    obtain ⟨hlhs, hrhs, htype⟩ := harguments
    exact succeeds_one (Build.succeeds_binary hb opcode hlhs hrhs htype hrange)
  case addToContext parent child =>
    obtain ⟨hparent, hchild, -⟩ := harguments
    refine .bind (Build.succeeds_addToContext hb hparent hchild) fun _ b₁ hb₁ _ => ?_
    exact .pure hb₁.sound nofun

/-- No call makes more than two nodes. -/
theorem makes_perform (c : BuilderCall) : Build.Makes 2 c.perform := by
  cases c with
  | builtin kind => exact (Build.makes_builtin kind).returning.mono (by decide)
  | pointerTo pointee =>
    exact ((Build.makes_getType pointee).bind fun _ => Build.makes_addType _).returning.mono (by decide)
  | recordType decl => exact (Build.makes_recordType decl).returning.mono (by decide)
  | functionType result params =>
    exact (Build.makes_functionType result params).returning.mono (by decide)
  | param name type range => exact (Build.makes_addDecl _).returning.mono (by decide)
  | function parent name type params body range =>
    exact (Build.makes_function parent name type params body range).returning.mono (by decide)
  | var parent name type init range =>
    exact (Build.makes_var parent name type init range).returning.mono (by decide)
  | localVar name type init range => exact (Build.makes_addDecl _).returning.mono (by decide)
  | record parent name range =>
    refine (Build.makes_record parent name range).bind (k := 0) ?_
    rintro ⟨decl, type⟩
    exact .pure _
  | field parent name type range =>
    exact (Build.makes_field parent name type range).returning.mono (by decide)
  | compound | returnStmt | declStmt | binary =>
    exact (Build.makes_addStmt _).returning.mono (by decide)
  | intLiteral value range => exact (Build.makes_intLiteral value range).returning
  | declRef decl range =>
    exact ((Build.makes_getDecl decl).bind fun _ => Build.makes_addStmt _).returning.mono (by decide)
  | addToContext parent child =>
    exact ((Build.makes_addToContext parent child).bind fun _ => .pure []).mono (by decide)

end BuilderCall

/-! ### Lists of calls -/

/-- A builder, with the nodes that its caller has been given. -/
structure Construction where
  builder : Builder
  handles : List Visit

namespace Construction

/-- A builder that has only a translation unit. -/
def start (file : String) : Construction :=
  ⟨Builder.new file, [.decl (Builder.new file).unit]⟩

/-- The construction after a call, unless the call fails. -/
def call (t : Construction) (c : BuilderCall) : Option Construction := do
  let (handles, b) ← c.perform.answer? t.builder
  return ⟨b, t.handles ++ handles⟩

/-- The construction after calls, unless one of them fails. -/
def calls (t : Construction) (cs : List BuilderCall) : Option Construction :=
  cs.foldlM call t

/-- Every call is admissible where it is made. -/
def Admits : Construction → List BuilderCall → Prop
  | _, [] => True
  | t, c :: cs => c.Admissible t.builder.context t.handles ∧ ∀ t' ∈ t.call c, t'.Admits cs

instance decidableAdmits : ∀ (t : Construction) (cs : List BuilderCall), Decidable (t.Admits cs)
  | _, [] => isTrue trivial
  | t, c :: cs =>
    have := fun t' => decidableAdmits t' cs
    inferInstanceAs (Decidable
      (c.Admissible t.builder.context t.handles ∧ ∀ t' ∈ t.call c, t'.Admits cs))

/-- One of the calls makes more nodes than there are positions for. -/
def Exhausts : Construction → List BuilderCall → Prop
  | _, [] => False
  | t, c :: cs => (∃ x ∈ c.perform t.builder, ¬ x.2.context.Addressable) ∨
    ∃ t' ∈ t.call c, t'.Exhausts cs

/-- The builder is sound and has what the caller was given. -/
structure Sound (t : Construction) : Prop where
  builder : t.builder.Sound
  handles : ∀ v ∈ t.handles, t.builder.context.Has v

theorem sound_start (file : String) : (start file).Sound where
  builder := Builder.sound_new file
  handles := by
    intro v hv
    rw [List.mem_singleton.mp hv]
    exact (Builder.sound_new file).has_unit

variable {t : Construction}

/-- An admissible call succeeds if there are positions for the nodes that it makes. -/
theorem Sound.exists_call (ht : t.Sound) {c : BuilderCall}
    (hc : c.Admissible t.builder.context t.handles) :
    (∃ x ∈ c.perform t.builder, ¬ x.2.context.Addressable) ∨ ∃ t', t.call c = some t' ∧ t'.Sound := by
  obtain ⟨handles, b, hrun, hleads, hhandles⟩ :=
    BuilderCall.succeeds ht.builder (fun v hv => ht.handles v (hc.arguments v hv)) hc.range
  by_cases hfits : b.context.Addressable
  · refine .inr ⟨⟨b, t.handles ++ handles⟩, ?_, hleads.sound, ?_⟩
    · rw [call, Build.answer?_of_addressable hrun hfits]
      rfl
    · exact List.forall_mem_append.mpr ⟨fun v hv => hleads.has (ht.handles v hv), hhandles⟩
  · exact .inl ⟨(handles, b), hrun, hfits⟩

/-- Admissible calls succeed as long as there are positions. -/
theorem Sound.exists_calls : ∀ {cs : List BuilderCall} {t : Construction}, t.Sound → t.Admits cs →
    t.Exhausts cs ∨ ∃ t', t.calls cs = some t' ∧ t'.Sound
  | [], t, ht, _ => .inr ⟨t, rfl, ht⟩
  | c :: cs, t, ht, hcs => by
    rcases ht.exists_call hcs.1 with hfull | ⟨t', hcall, ht'⟩
    · exact .inl (.inl hfull)
    rcases exists_calls ht' (hcs.2 t' hcall) with hfull | ⟨t'', hcalls, ht''⟩
    · exact .inl (.inr ⟨t', hcall, hfull⟩)
    · refine .inr ⟨t'', ?_, ht''⟩
      rw [calls, List.foldlM_cons, hcall]
      exact hcalls

/-- Calls make two nodes each at most, so it takes many of them to run out of positions. -/
theorem size_le_of_exhausts : ∀ {cs : List BuilderCall} {t : Construction}, t.Exhausts cs →
    UInt32.size ≤ t.builder.context.nodeCount + 2 * cs.length
  | c :: cs, t, h => by
    rw [List.length_cons]
    rcases h with ⟨⟨handles, b⟩, hrun, hfull⟩ | ⟨t', hcall, hrest⟩
    · have hmade := c.makes_perform t.builder handles b hrun
      have hsize : UInt32.size ≤ b.context.nodeCount :=
        Nat.le_of_not_lt fun hlt => hfull (Context.addressable_of_nodeCount hlt)
      omega
    · obtain ⟨⟨handles, b⟩, hanswer, hafter⟩ := Option.bind_eq_some_iff.mp hcall
      cases hafter
      have hmade := c.makes_perform t.builder handles b (Build.of_answer? hanswer).1
      have hsize := size_le_of_exhausts hrest
      dsimp only at hsize
      omega

/-- A call that makes more nodes than there are positions for has no answer, so the calls have none. -/
theorem calls_of_exhausts : ∀ {cs : List BuilderCall} {t : Construction}, t.Exhausts cs →
    t.calls cs = none
  | c :: cs, t, h => by
    rw [calls, List.foldlM_cons]
    rcases h with ⟨⟨handles, b⟩, hrun, hfull⟩ | ⟨t', hcall, hrest⟩
    · have hcall : t.call c = none := by
        rw [call, Build.answer?, Option.mem_def.mp hrun]
        simp [hfull]
      rw [hcall]
      rfl
    · rw [Option.mem_def.mp hcall]
      exact calls_of_exhausts hrest

/-- Calls on a new builder that are given only what earlier calls returned all succeed, unless one of them
makes more nodes than there are positions for, and then the calls have no answer; no list that is shorter
than half the number of positions comes to that. If no node of the translation unit is defined inside
itself, the unit is then written to the end of every writer that rejects nothing, from a session of its
own and under all valid options, and it can be indexed. Of a filter it is asked that it decides about
declarations in known files, as one by file names does (`DeclFilter.skipFiles_decides`). -/
theorem acyclic_units_export (file : String) {cs : List BuilderCall} (hcs : (start file).Admits cs) :
    (UInt32.size ≤ 2 * cs.length + 1 ∧ (start file).Exhausts cs ∧ (start file).calls cs = none) ∨
    ∃ t, (start file).calls cs = some t ∧
      (t.builder.context.Acyclic (.decl t.builder.unit) →
        (∀ {σ : Type} [ScopedWriter σ] (w : σ) (opts : Options), Reliable w → scopes w = {} →
          opts.validate = .ok () → (∀ f ∈ opts.filter, f.Decides) →
            (({} : Session).write t.builder.context t.builder.unit opts w).1 = .ok ()) ∧
        ∃ y, Index.ofUnit t.builder.context t.builder.unit = .ok y) := by
  rcases (sound_start file).exists_calls hcs with hfull | ⟨t, hcalls, ht⟩
  · have hsize := size_le_of_exhausts hfull
    have hone : (start file).builder.context.nodeCount = 1 := by
      rw [start, Builder.new_eq]
      rfl
    exact .inl ⟨by omega, hfull, calls_of_exhausts hfull⟩
  refine .inr ⟨t, hcalls, fun hacyclic => ?_⟩
  have hbuilt := ht.builder.built
  obtain ⟨d, hd, hunit⟩ := ht.builder.unit
  constructor
  · intro σ _ w opts hw hfresh hvalid hfilter
    exact Session.write_of_sound hw hfresh hvalid hd hunit (hbuilt.isSound_layout hfilter) hacyclic
      {} rfl
  · exact Index.exists_ofUnit hd hunit hacyclic fun v hv =>
      hbuilt.has_of_reach ht.builder.has_unit hv

/-- The function `int next(int n) { return n + 1; }`, with a range of one line. -/
def incrementCalls : List BuilderCall :=
  let line : SourceRange := ⟨some ⟨⟨0⟩, 1, 1⟩, some ⟨⟨0⟩, 1, 32⟩⟩
  [.builtin .int, .functionType ⟨0⟩ [⟨0⟩], .param "n" (.plain ⟨0⟩) line, .declRef ⟨1⟩ line,
    .intLiteral 1 line, .binary .add ⟨0⟩ ⟨1⟩ (.plain ⟨0⟩) line, .returnStmt (some ⟨2⟩) line,
    .compound [⟨3⟩] line, .function ⟨0⟩ "next" ⟨1⟩ [⟨1⟩] (some ⟨4⟩) line]

/-- The function is written and indexed. -/
theorem acyclic_units_export_increment :
    ∃ t, (start "next.c").calls incrementCalls = some t ∧
      t.builder.context.Acyclic (.decl t.builder.unit) ∧
      (({} : Session).write t.builder.context t.builder.unit
        { filter := some (.skipFiles ["limits.h"]) } ({} : Recorder)).1 = .ok () ∧
      ∃ y, Index.ofUnit t.builder.context t.builder.unit = .ok y := by
  have hadmits : (start "next.c").Admits incrementCalls := by decide +kernel
  have hwalks : ∀ t ∈ (start "next.c").calls incrementCalls,
      (t.builder.context.walk t.builder.unit).isOk := by
    decide +kernel
  have hshort : ¬ UInt32.size ≤ 2 * incrementCalls.length + 1 := by decide
  obtain ⟨t, hcalls, hexport⟩ :=
    (acyclic_units_export "next.c" hadmits).resolve_left fun hfull => hshort hfull.1
  obtain ⟨visits, hwalk⟩ : ∃ visits, t.builder.context.walk t.builder.unit = .ok visits := by
    have hok := hwalks t hcalls
    cases hwalk : t.builder.context.walk t.builder.unit with
    | ok visits => exact ⟨visits, rfl⟩
    | error e =>
      rw [hwalk] at hok
      cases hok
  have hacyclic := Context.acyclic_of_walk hwalk
  obtain ⟨hwrite, hindex⟩ := hexport hacyclic
  refine ⟨t, hcalls, hacyclic, hwrite ({} : Recorder) _ trivial rfl rfl ?_, hindex⟩
  rintro _ ⟨⟩
  exact DeclFilter.skipFiles_decides _

end Construction

end SyntaxExport
