import SyntaxExport.Proofs.Building

/-!
# Requests to builders

A caller makes calls of a builder, and may hand it nodes of its own making (`BuilderRequest`). It may use
any positions, also such as no call has returned. The requests with what was returned are the dialogue
of the caller with the builder (`Dialogue`). A request gets no answer where it is given a position
outside its arena, and where an arena would have more entries than there are positions.

What a request does is read off the steps that it is made of: a step that gives a result is taken apart
into its parts (`Build.exists_of_bind`), and what every part keeps, the whole keeps (`Build.Keeps`). So a
request leaves declarations their names, and notes no builtin type anew
(`BuilderRequest.extends_of_perform`).
-/

namespace SyntaxExport

/-! ### Requests -/

/-- A request to a builder. -/
inductive BuilderRequest where
  | call (c : BuilderCall)
  /-- A declaration that the caller has made, to be added to the context of a parent. -/
  | declare (parent : DeclId) (d : Decl)
  /-- A statement that the caller has made. -/
  | stmt (s : Stmt)
  deriving DecidableEq, Repr

/-- The step of a request, which returns nodes to the caller. -/
def BuilderRequest.perform : BuilderRequest → Build (List Visit)
  | .call c => c.perform
  | .declare parent d => do return [.decl (← Build.declare parent d)]
  | .stmt s => do return [.stmt (← Build.addStmt s)]

/-- A request with the nodes that were returned. -/
structure Exchange where
  request : BuilderRequest
  nodes : List Visit
  deriving DecidableEq, Repr

/-- A builder, with the requests that it has answered. -/
structure Dialogue where
  builder : Builder
  exchanges : List Exchange

namespace Dialogue

/-- A new builder. -/
def start (file : String) : Dialogue :=
  ⟨Builder.new file, []⟩

/-- The dialogue after a request, unless there is no answer. -/
def request (t : Dialogue) (r : BuilderRequest) : Option Dialogue := do
  let (nodes, b) ← r.perform.answer? t.builder
  return ⟨b, t.exchanges ++ [⟨r, nodes⟩]⟩

/-- The dialogue after requests, unless one of them has no answer. -/
def requests (t : Dialogue) (rs : List BuilderRequest) : Option Dialogue :=
  rs.foldlM request t

variable {t t' : Dialogue}

theorem of_request {r : BuilderRequest} (h : t.request r = some t') : ∃ nodes,
    r.perform t.builder = some (nodes, t'.builder) ∧ t'.builder.context.Addressable ∧
      t'.exchanges = t.exchanges ++ [⟨r, nodes⟩] := by
  obtain ⟨⟨nodes, b⟩, hanswer, hrest⟩ := Option.bind_eq_some_iff.mp h
  cases hrest
  obtain ⟨hrun, hfits⟩ := Build.of_answer? hanswer
  exact ⟨nodes, hrun, hfits, rfl⟩

/-- What every answered request keeps, a dialogue keeps. -/
theorem keeps_of_requests {P : Dialogue → Prop}
    (hkeeps : ∀ {t t' : Dialogue} {r : BuilderRequest}, P t → t.request r = some t' → P t') :
    ∀ {rs : List BuilderRequest} {t t' : Dialogue}, P t → t.requests rs = some t' → P t'
  | [], t, t', ht, h => by
    cases h
    exact ht
  | r :: rs, t, t', ht, h => by
    rw [requests, List.foldlM_cons] at h
    obtain ⟨t₁, hrequest, hrest⟩ := Option.bind_eq_some_iff.mp h
    exact keeps_of_requests hkeeps (hkeeps ht hrequest) hrest

end Dialogue

/-! ### Steps that give a result -/

namespace Build

variable {α β : Type} {b b' : Builder}

theorem of_return {m : Build α} {f : α → β} {c : β} (h : (do return f (← m)) b = some (c, b')) :
    ∃ a, m b = some (a, b') ∧ c = f a := by
  obtain ⟨a, b₁, hrun, hrest⟩ := exists_of_bind h
  cases hrest
  exact ⟨a, hrun, rfl⟩

theorem of_getDecl {id : DeclId} {d : Decl} (h : getDecl id b = some (d, b')) :
    b.context.decl? id = some d ∧ b' = b := by
  obtain ⟨_, hd, hrest⟩ := Option.bind_eq_some_iff.mp h
  cases hrest
  exact ⟨hd, rfl⟩

theorem of_getType {id : TypeId} {t : TypeNode} (h : getType id b = some (t, b')) : b' = b := by
  obtain ⟨_, -, hrest⟩ := Option.bind_eq_some_iff.mp h
  cases hrest
  rfl

theorem of_addDecl {d : Decl} {id : DeclId} (h : addDecl d b = some (id, b')) :
    id = Id.ofSize b.context.decls.size ∧ b' = { b with context := (b.context.addDecl d).2 } := by
  cases h
  exact ⟨rfl, rfl⟩

theorem of_updateDecl {id : DeclId} {f : Decl → Decl} {u : Unit}
    (h : updateDecl id f b = some (u, b')) :
    (∃ d, b.context.decl? id = some d) ∧ b' = { b with context := b.context.modifyDecl id f } := by
  obtain ⟨d, b₁, hget, hrest⟩ := exists_of_bind h
  obtain ⟨hd, rfl⟩ := of_getDecl hget
  cases hrest
  exact ⟨⟨d, hd⟩, rfl⟩

theorem of_qualified {parent : DeclId} {s : String} {n : DeclName}
    (h : qualified parent s b = some (n, b')) :
    (∃ d, b.context.decl? parent = some d ∧ n = DeclName.inside d.name s) ∧ b' = b := by
  obtain ⟨d, b₁, hget, hrest⟩ := exists_of_bind h
  obtain ⟨hd, rfl⟩ := of_getDecl hget
  cases hrest
  exact ⟨⟨d, hd, rfl⟩, rfl⟩

/-- Wherever the step gives a result, `R` holds between the builders before and after it. -/
def Keeps (R : Builder → Builder → Prop) (m : Build α) : Prop :=
  ∀ b a b', m b = some (a, b') → R b b'

theorem Keeps.pure {R : Builder → Builder → Prop} [Std.Refl R] (a : α) :
    Keeps R (Pure.pure a : Build α) := by
  rintro b _ _ ⟨⟩
  exact Std.Refl.refl b

theorem Keeps.bind {R : Builder → Builder → Prop} [IsTrans Builder R] {m : Build α}
    {f : α → Build β} (hm : Keeps R m) (hf : ∀ a, Keeps R (f a)) : Keeps R (m >>= f) := by
  intro b c b' h
  obtain ⟨a, b₁, hrun, hrest⟩ := exists_of_bind h
  exact IsTrans.trans b b₁ b' (hm b a b₁ hrun) (hf a b₁ c b' hrest)

theorem Keeps.returning {R : Builder → Builder → Prop} [Std.Refl R] [IsTrans Builder R] {m : Build α}
    {f : α → β} (hm : Keeps R m) : Keeps R (do return f (← m)) :=
  hm.bind fun a => .pure (f a)

theorem Keeps.mono {R R' : Builder → Builder → Prop} {m : Build α} (hm : Keeps R m)
    (h : ∀ {b b'}, R b b' → R' b b') : Keeps R' m :=
  fun b a b' hrun => h (hm b a b' hrun)

end Build

/-! ### Entries -/

namespace Context

variable (ctx : Context)

theorem decl?_addDecl (d : Decl) (id : DeclId) : (ctx.addDecl d).2.decl? id
    = if id.toNat = ctx.decls.size then some d else ctx.decl? id := by
  rw [decl?, addDecl, Array.getElem?_push]
  rfl

theorem type?_addType (t : TypeNode) (id : TypeId) : (ctx.addType t).2.type? id
    = if id.toNat = ctx.types.size then some t else ctx.type? id := by
  rw [type?, addType, Array.getElem?_push]
  rfl

variable {ctx}

theorem lt_of_decl? {id : DeclId} {d : Decl} (h : ctx.decl? id = some d) :
    id.toNat < ctx.decls.size :=
  (Array.getElem?_eq_some_iff.mp h).1

/-- A new entry leaves the others in their places. -/
theorem decl?_addDecl_of_some (d : Decl) {id : DeclId} {e : Decl} (h : ctx.decl? id = some e) :
    (ctx.addDecl d).2.decl? id = some e := by
  rw [decl?_addDecl, if_neg (Nat.ne_of_lt (lt_of_decl? h)), h]

@[simp] theorem size_addDecl (ctx : Context) (d : Decl) :
    (ctx.addDecl d).2.decls.size = ctx.decls.size + 1 :=
  Array.size_push _

@[simp] theorem size_modifyDecl (ctx : Context) (id : DeclId) (f : Decl → Decl) :
    (ctx.modifyDecl id f).decls.size = ctx.decls.size :=
  Array.size_modify

/-- The position of the next declaration has no entry yet. -/
theorem decl?_ofSize (h : ctx.decls.size < UInt32.size) :
    ctx.decl? (Id.ofSize ctx.decls.size) = none := by
  rw [decl?, Id.toNat_ofSize h]
  exact Array.getElem?_size

theorem decl?_addDecl_new (d : Decl) (h : ctx.decls.size < UInt32.size) :
    (ctx.addDecl d).2.decl? (Id.ofSize ctx.decls.size) = some d := by
  rw [decl?_addDecl, if_pos (Id.toNat_ofSize h)]

theorem type?_addType_of_some (t : TypeNode) {id : TypeId} {node : TypeNode}
    (h : ctx.type? id = some node) : (ctx.addType t).2.type? id = some node := by
  have hlt : id.toNat < ctx.types.size := (Array.getElem?_eq_some_iff.mp h).1
  rw [type?_addType, if_neg (Nat.ne_of_lt hlt), h]

end Context

/-! ### Growth -/

/-- The type of a builtin kind. -/
def BuiltinKind.node (k : BuiltinKind) : TypeNode :=
  { kind := .builtin, spelling := k.spelling, payload := .builtin k }

namespace Builder

/-- The builtin types that were noted are the types of their kinds. -/
def Shares (b : Builder) : Prop :=
  ∀ k t, b.builtins.lookup k = some t → b.context.type? t = some k.node

/-- Declarations keep their names, and the builtin types that were noted are noted still. -/
structure Extends (b b' : Builder) : Prop where
  unit : b'.unit = b.unit
  decls : b.context.decls.size ≤ b'.context.decls.size
  names : ∀ id d, b.context.decl? id = some d → ∃ d', b'.context.decl? id = some d' ∧ d'.name = d.name
  types : b.context.types.size ≤ b'.context.types.size
  lookup : ∀ k t, b.builtins.lookup k = some t → b'.builtins.lookup k = some t
  shares : b'.context.types.size < UInt32.size → b.Shares → b'.Shares

/-- The declarations stay as they are, too. -/
structure Amends (b b' : Builder) : Prop extends b.Extends b' where
  same : b'.context.decls = b.context.decls

variable (b : Builder)

/-- A builder that keeps its types. -/
theorem extends_of_types {ctx : Context} (htypes : ctx.types = b.context.types)
    (hdecls : b.context.decls.size ≤ ctx.decls.size)
    (hnames : ∀ id d, b.context.decl? id = some d → ∃ d', ctx.decl? id = some d' ∧ d'.name = d.name) :
    b.Extends { b with context := ctx } where
  unit := rfl
  decls := hdecls
  names := hnames
  types := by rw [htypes]
  lookup := fun _ _ h => h
  shares := by simp [Shares, Context.type?, htypes]

instance : Std.Refl Extends where
  refl b := b.extends_of_types rfl (Nat.le_refl _) fun _ d hd => ⟨d, hd, rfl⟩

instance : IsTrans Builder Extends where
  trans b b₁ b₂ h h' :=
    { unit := h'.unit.trans h.unit
      decls := h.decls.trans h'.decls
      names := by
        intro id d hd
        obtain ⟨d₁, hd₁, hname⟩ := h.names id d hd
        obtain ⟨d₂, hd₂, hname'⟩ := h'.names id d₁ hd₁
        exact ⟨d₂, hd₂, hname'.trans hname⟩
      types := h.types.trans h'.types
      lookup := fun k t hk => h'.lookup k t (h.lookup k t hk)
      shares := fun hfits hb => h'.shares hfits (h.shares (Nat.lt_of_le_of_lt h'.types hfits) hb) }

instance : Std.Refl Amends where
  refl b := ⟨Std.Refl.refl b, rfl⟩

instance : IsTrans Builder Amends where
  trans b b₁ b₂ h h' := ⟨IsTrans.trans b b₁ b₂ h.toExtends h'.toExtends, h'.same.trans h.same⟩

theorem extends_addDecl (d : Decl) : b.Extends { b with context := (b.context.addDecl d).2 } :=
  b.extends_of_types rfl (by simp) fun _ e he =>
    ⟨e, Context.decl?_addDecl_of_some d he, rfl⟩

/-- There was a position for a declaration that was added, if there are enough in the end. -/
theorem Extends.room {b b' : Builder} {d : Decl} {n : Nat}
    (h : Extends { b with context := (b.context.addDecl d).2 } b') (hfits : b'.context.decls.size < n) :
    b.context.decls.size < n := by
  have hgrows := h.decls
  rw [Context.size_addDecl] at hgrows
  omega

theorem extends_modifyDecl (id : DeclId) {f : Decl → Decl} (hf : ∀ d, (f d).name = d.name) :
    b.Extends { b with context := b.context.modifyDecl id f } := by
  refine b.extends_of_types rfl (by simp) fun id' d hd => ?_
  rw [Context.decl?_modifyDecl, hd]
  refine ⟨_, rfl, ?_⟩
  split
  · exact hf d
  · rfl

theorem amends_addStmt (s : Stmt) : b.Amends { b with context := (b.context.addStmt s).2 } :=
  ⟨b.extends_of_types rfl (Nat.le_refl _) fun _ d hd => ⟨d, hd, rfl⟩, rfl⟩

theorem amends_addType (t : TypeNode) : b.Amends { b with context := (b.context.addType t).2 } where
  unit := rfl
  decls := Nat.le_refl _
  names := fun _ d hd => ⟨d, hd, rfl⟩
  types := by simp [Context.addType]
  lookup := fun _ _ h => h
  shares := fun _ hb k i hk => Context.type?_addType_of_some t (hb k i hk)
  same := rfl

/-- A builtin type is noted when it is made. -/
theorem amends_addBuiltin {k : BuiltinKind} (h : b.builtins.lookup k = none) : b.Amends
    { b with
      context := (b.context.addType k.node).2
      builtins := (k, (b.context.addType k.node).1) :: b.builtins } where
  __ := b.amends_addType k.node
  lookup := by
    intro k' t hk'
    have hne : k' ≠ k := by
      rintro rfl
      rw [h] at hk'
      cases hk'
    rw [List.lookup_cons, beq_false_of_ne hne]
    exact hk'
  shares := by
    intro hfits hb k' t hk'
    rw [List.lookup_cons] at hk'
    split at hk'
    · next hkind =>
      cases hk'
      rw [eq_of_beq hkind, Context.type?_addType]
      refine if_pos (Id.toNat_ofSize (Nat.lt_trans ?_ hfits))
      simp [Context.addType]
    · exact Context.type?_addType_of_some _ (hb k' t hk')

end Builder

namespace Build

variable {α β : Type} {b b' : Builder}

/-! ### Steps that add no declaration -/

theorem keeps_getDecl (id : DeclId) : Keeps Builder.Amends (getDecl id) := by
  intro b d b' h
  rw [(of_getDecl h).2]
  exact Std.Refl.refl b

theorem keeps_getType (id : TypeId) : Keeps Builder.Amends (getType id) := by
  intro b t b' h
  rw [of_getType h]
  exact Std.Refl.refl b

theorem keeps_addStmt (s : Stmt) : Keeps Builder.Amends (addStmt s) := by
  rintro b _ _ ⟨⟩
  exact b.amends_addStmt s

theorem keeps_addType (t : TypeNode) : Keeps Builder.Amends (addType t) := by
  rintro b _ _ ⟨⟩
  exact b.amends_addType t

/-- What `builtin` returns is noted, whether it was noted before or not. -/
theorem of_builtin {k : BuiltinKind} {t : TypeId} (h : builtin k b = some (t, b')) :
    b.Amends b' ∧ b'.builtins.lookup k = some t := by
  obtain ⟨_, _, hget, hrest⟩ := exists_of_bind h
  cases hget
  cases hlookup : b.builtins.lookup k with
  | some t' =>
    rw [hlookup] at hrest
    cases hrest
    exact ⟨Std.Refl.refl b, hlookup⟩
  | none =>
    rw [hlookup] at hrest
    cases hrest
    exact ⟨b.amends_addBuiltin hlookup, by simp⟩

theorem keeps_builtin (k : BuiltinKind) : Keeps Builder.Amends (builtin k) :=
  fun _ _ _ h => (of_builtin h).1

theorem keeps_mapM {f : β → Build α} (hf : ∀ x, Keeps Builder.Amends (f x)) :
    ∀ l : List β, Keeps Builder.Amends (l.mapM f)
  | [] => by
    rw [List.mapM_nil]
    exact .pure []
  | x :: l => by
    rw [List.mapM_cons]
    exact .bind (hf x) fun _ => .bind (keeps_mapM hf l) fun _ => .pure _

theorem keeps_pointerTo (pointee : TypeId) : Keeps Builder.Amends (pointerTo pointee) :=
  .bind (keeps_getType pointee) fun _ => keeps_addType _

theorem keeps_functionType (result : TypeId) (params : List TypeId) :
    Keeps Builder.Amends (functionType result params) :=
  .bind (keeps_mapM (fun p => .bind (keeps_getType p) fun _ => .pure _) params) fun _ =>
    .bind (keeps_getType result) fun _ => keeps_addType _

theorem keeps_intLiteral (value : Int) (range : SourceRange) :
    Keeps Builder.Amends (intLiteral value range) :=
  .bind (keeps_builtin .int) fun _ => keeps_addStmt _

theorem keeps_declRef (decl : DeclId) (range : SourceRange) :
    Keeps Builder.Amends (declRef decl range) :=
  .bind (keeps_getDecl decl) fun _ => keeps_addStmt _

/-! ### Steps that add and change declarations -/

theorem keeps_addDecl (d : Decl) : Keeps Builder.Extends (addDecl d) := by
  rintro b _ _ ⟨⟩
  exact b.extends_addDecl d

theorem keeps_updateDecl (id : DeclId) {f : Decl → Decl} (hf : ∀ d, (f d).name = d.name) :
    Keeps Builder.Extends (updateDecl id f) := by
  intro b u b' h
  rw [(of_updateDecl h).2]
  exact b.extends_modifyDecl id hf

theorem keeps_qualified (parent : DeclId) (s : String) : Keeps Builder.Extends (qualified parent s) := by
  intro b n b' h
  rw [(of_qualified h).2]
  exact Std.Refl.refl b

theorem keeps_addToContext (parent child : DeclId) :
    Keeps Builder.Extends (addToContext parent child) :=
  .bind (keeps_updateDecl parent fun _ => rfl) fun _ => keeps_updateDecl child fun _ => rfl

theorem keeps_declare (parent : DeclId) (d : Decl) : Keeps Builder.Extends (declare parent d) :=
  .bind (keeps_addDecl d) fun id => .bind (keeps_addToContext parent id) fun _ => .pure id

theorem keeps_recordType (decl : DeclId) : Keeps Builder.Extends (recordType decl) :=
  .bind ((keeps_getDecl decl).mono (·.toExtends)) fun _ =>
    .bind ((keeps_addType _).mono (·.toExtends)) fun t =>
      .bind (keeps_updateDecl decl fun _ => rfl) fun _ => .pure t

theorem keeps_attachParams (id : DeclId) : ∀ params : List DeclId,
    Keeps Builder.Extends (params.forM fun p => updateDecl p (·.withParent id))
  | [] => .pure ()
  | p :: params => by
    show Keeps _ (updateDecl p (·.withParent id) >>= fun _ => _)
    exact .bind (keeps_updateDecl p fun _ => rfl) fun _ => keeps_attachParams id params

theorem keeps_function (parent : DeclId) (name : String) (type : TypeId) (params : List DeclId)
    (body : Option StmtId) (range : SourceRange) :
    Keeps Builder.Extends (function parent name type params body range) :=
  .bind (keeps_qualified parent name) fun _ => .bind (keeps_declare parent _) fun id =>
    .bind (keeps_attachParams id params) fun _ => .pure id

theorem keeps_record (parent : DeclId) (name : String) (range : SourceRange) :
    Keeps Builder.Extends (record parent name range) :=
  .bind (keeps_qualified parent name) fun _ => .bind (keeps_declare parent _) fun id =>
    .bind (keeps_recordType id) fun t => .pure (id, t)

theorem keeps_field (parent : DeclId) (name : String) (type : QualType) (range : SourceRange) :
    Keeps Builder.Extends (field parent name type range) :=
  .bind (keeps_qualified parent name) fun _ => keeps_declare parent _

/-- What `var` does: the name is put in at the end. -/
theorem of_var {parent id : DeclId} {name : String} {type : QualType} {init : Option StmtId}
    {range : SourceRange} (h : var parent name type init range b = some (id, b')) :
    ∃ b₁ b₂ d, localVar name type init range b = some (id, b₁) ∧
      addToContext parent id b₁ = some ((), b₂) ∧ b₂.context.decl? parent = some d ∧
      b' = { b₂ with
        context := b₂.context.modifyDecl id
          fun e => { e with name := some (DeclName.inside d.name name) } } := by
  obtain ⟨_, b₁, hlocal, h⟩ := exists_of_bind h
  obtain ⟨_, b₂, hattach, h⟩ := exists_of_bind h
  obtain ⟨_, _, hname, h⟩ := exists_of_bind h
  obtain ⟨_, _, hupdate, h⟩ := exists_of_bind h
  obtain ⟨⟨d, hd, rfl⟩, rfl⟩ := of_qualified hname
  obtain ⟨-, rfl⟩ := of_updateDecl hupdate
  cases h
  exact ⟨b₁, _, d, hlocal, hattach, hd, rfl⟩

/-- The declaration that `var` names in the end is new. -/
theorem extends_of_var {parent id : DeclId} {name : String} {type : QualType} {init : Option StmtId}
    {range : SourceRange} (h : var parent name type init range b = some (id, b'))
    (hfits : b'.context.decls.size < UInt32.size) : b.Extends b' := by
  obtain ⟨b₁, b₂, d, hlocal, hattach, -, rfl⟩ := of_var h
  have hafter := keeps_addToContext parent id b₁ () b₂ hattach
  obtain ⟨rfl, rfl⟩ := of_addDecl hlocal
  have hextends := IsTrans.trans b _ b₂ (b.extends_addDecl _) hafter
  have hsize := hafter.room (by simpa using hfits)
  exact
    { hextends with
      decls := by simpa using hextends.decls
      names := by
        intro id e he
        obtain ⟨e', he', hname⟩ := hextends.names id e he
        have hne : Id.ofSize b.context.decls.size ≠ id := by
          rintro rfl
          rw [Context.decl?_ofSize hsize] at he
          cases he
        exact ⟨e', by rw [Context.decl?_modifyDecl, he', Option.map_some, if_neg hne], hname⟩ }

end Build

/-! ### Requests and declarations -/

namespace BuilderRequest

/-- The requests that make declarations or change them. -/
inductive OnDecls : BuilderRequest → Prop where
  | recordType (decl : DeclId) : OnDecls (.call (.recordType decl))
  | param (name : String) (type : QualType) (range : SourceRange) :
    OnDecls (.call (.param name type range))
  | function (parent : DeclId) (name : String) (type : TypeId) (params : List DeclId)
    (body : Option StmtId) (range : SourceRange) :
    OnDecls (.call (.function parent name type params body range))
  | var (parent : DeclId) (name : String) (type : QualType) (init : Option StmtId)
    (range : SourceRange) : OnDecls (.call (.var parent name type init range))
  | localVar (name : String) (type : QualType) (init : Option StmtId) (range : SourceRange) :
    OnDecls (.call (.localVar name type init range))
  | record (parent : DeclId) (name : String) (range : SourceRange) :
    OnDecls (.call (.record parent name range))
  | field (parent : DeclId) (name : String) (type : QualType) (range : SourceRange) :
    OnDecls (.call (.field parent name type range))
  | addToContext (parent child : DeclId) : OnDecls (.call (.addToContext parent child))
  | declare (parent : DeclId) (d : Decl) : OnDecls (.declare parent d)

variable {b b' : Builder} {r : BuilderRequest} {nodes : List Visit}

/-- The other requests leave the declarations as they are. -/
theorem onDecls_or_amends (h : r.perform b = some (nodes, b')) : r.OnDecls ∨ b.Amends b' := by
  cases r with
  | declare parent d => exact .inl (.declare parent d)
  | stmt s => exact .inr ((Build.keeps_addStmt s).returning _ _ _ h)
  | call c =>
    cases c with
    | recordType decl => exact .inl (.recordType decl)
    | param name type range => exact .inl (.param name type range)
    | function parent name type params body range =>
      exact .inl (.function parent name type params body range)
    | var parent name type init range => exact .inl (.var parent name type init range)
    | localVar name type init range => exact .inl (.localVar name type init range)
    | record parent name range => exact .inl (.record parent name range)
    | field parent name type range => exact .inl (.field parent name type range)
    | addToContext parent child => exact .inl (.addToContext parent child)
    | builtin kind => exact .inr ((Build.keeps_builtin kind).returning _ _ _ h)
    | pointerTo pointee => exact .inr ((Build.keeps_pointerTo pointee).returning _ _ _ h)
    | functionType result params => exact .inr ((Build.keeps_functionType result params).returning _ _ _ h)
    | compound children range => exact .inr ((Build.keeps_addStmt _).returning _ _ _ h)
    | returnStmt value range => exact .inr ((Build.keeps_addStmt _).returning _ _ _ h)
    | declStmt decls range => exact .inr ((Build.keeps_addStmt _).returning _ _ _ h)
    | intLiteral value range => exact .inr ((Build.keeps_intLiteral value range).returning _ _ _ h)
    | declRef decl range => exact .inr ((Build.keeps_declRef decl range).returning _ _ _ h)
    | binary opcode lhs rhs type range => exact .inr ((Build.keeps_addStmt _).returning _ _ _ h)

theorem extends_of_perform (h : r.perform b = some (nodes, b'))
    (hfits : b'.context.decls.size < UInt32.size) : b.Extends b' := by
  rcases onDecls_or_amends h with hdecls | hamends
  swap
  · exact hamends.toExtends
  cases hdecls with
  | recordType decl => exact (Build.keeps_recordType decl).returning _ _ _ h
  | param name type range => exact (Build.keeps_addDecl _).returning _ _ _ h
  | function parent name type params body range =>
    exact (Build.keeps_function parent name type params body range).returning _ _ _ h
  | var parent name type init range =>
    obtain ⟨id, hvar, -⟩ := Build.of_return h
    exact Build.extends_of_var hvar hfits
  | localVar name type init range => exact (Build.keeps_addDecl _).returning _ _ _ h
  | record parent name range => exact (Build.keeps_record parent name range).returning _ _ _ h
  | field parent name type range => exact (Build.keeps_field parent name type range).returning _ _ _ h
  | addToContext parent child => exact (Build.keeps_addToContext parent child).returning _ _ _ h
  | declare parent d => exact (Build.keeps_declare parent d).returning _ _ _ h

end BuilderRequest

end SyntaxExport
