import SyntaxExport.Ast.Builder

/-!
# Positions of nodes

A position is a word, so an arena cannot have more entries than there are words. A step has no answer
where it makes more nodes than there are positions for (`Build.answer?`). Every step makes a bounded
number of nodes (`Build.Makes`), so it takes many of them to come to that.
-/

namespace SyntaxExport

namespace Context

/-- Every entry of the arenas that builders fill has a position of its own, and there is one that no
entry has. -/
structure Addressable (ctx : Context) : Prop where
  decls : ctx.decls.size < UInt32.size
  stmts : ctx.stmts.size < UInt32.size
  types : ctx.types.size < UInt32.size

instance (ctx : Context) : Decidable ctx.Addressable :=
  decidable_of_iff (ctx.decls.size < UInt32.size ∧ ctx.stmts.size < UInt32.size
      ∧ ctx.types.size < UInt32.size)
    ⟨fun h => ⟨h.1, h.2.1, h.2.2⟩, fun h => ⟨h.decls, h.stmts, h.types⟩⟩

/-- The number of entries of these arenas. -/
def nodeCount (ctx : Context) : Nat :=
  ctx.decls.size + ctx.stmts.size + ctx.types.size

variable {ctx : Context}

theorem addressable_of_nodeCount (h : ctx.nodeCount < UInt32.size) : ctx.Addressable := by
  rw [nodeCount] at h
  exact ⟨by omega, by omega, by omega⟩

theorem nodeCount_addDecl (d : Decl) : (ctx.addDecl d).2.nodeCount = ctx.nodeCount + 1 := by
  simp only [nodeCount, addDecl, Array.size_push]
  omega

theorem nodeCount_addStmt (s : Stmt) : (ctx.addStmt s).2.nodeCount = ctx.nodeCount + 1 := by
  simp only [nodeCount, addStmt, Array.size_push]
  omega

theorem nodeCount_addType (t : TypeNode) : (ctx.addType t).2.nodeCount = ctx.nodeCount + 1 := by
  simp only [nodeCount, addType, Array.size_push]
  omega

theorem nodeCount_modifyDecl (id : DeclId) (f : Decl → Decl) :
    (ctx.modifyDecl id f).nodeCount = ctx.nodeCount := by
  simp only [nodeCount, modifyDecl, Array.size_modify]

end Context

namespace Build

variable {α β : Type} {b b' : Builder}

/-! ### Answers -/

theorem exists_of_bind {m : Build α} {f : α → Build β} {c : β} (h : (m >>= f) b = some (c, b')) :
    ∃ a b₁, m b = some (a, b₁) ∧ f a b₁ = some (c, b') := by
  obtain ⟨⟨a, b₁⟩, hm, hf⟩ := Option.bind_eq_some_iff.mp h
  exact ⟨a, b₁, hm, hf⟩

/-- The result of a step. There is none where an arena has more entries after it than there are
positions. -/
def answer? (m : Build α) (b : Builder) : Option (α × Builder) := do
  let (a, b) ← m b
  if b.context.Addressable then some (a, b) else none

theorem of_answer? {m : Build α} {a : α} (h : m.answer? b = some (a, b')) :
    m b = some (a, b') ∧ b'.context.Addressable := by
  obtain ⟨⟨a₁, b₁⟩, hrun, hrest⟩ := Option.bind_eq_some_iff.mp h
  dsimp only at hrest
  split at hrest
  · next hfits =>
    cases hrest
    exact ⟨hrun, hfits⟩
  · cases hrest

theorem answer?_of_addressable {m : Build α} {a : α} (h : m b = some (a, b'))
    (hfits : b'.context.Addressable) : m.answer? b = some (a, b') := by
  rw [answer?, h]
  exact if_pos hfits

/-! ### Steps that make few nodes -/

/-- Wherever the step gives a result, it has made no more than `n` nodes. -/
def Makes (n : Nat) (m : Build α) : Prop :=
  ∀ b a b', m b = some (a, b') → b'.context.nodeCount ≤ b.context.nodeCount + n

namespace Makes

variable {n k : Nat} {m : Build α}

theorem mono (hm : Makes n m) (h : n ≤ k) : Makes k m :=
  fun b a b' hrun => Nat.le_trans (hm b a b' hrun) (Nat.add_le_add_left h _)

theorem pure (a : α) : Makes 0 (Pure.pure a : Build α) := by
  rintro b _ _ ⟨⟩
  exact Nat.le_refl _

theorem bind {f : α → Build β} (hm : Makes n m) (hf : ∀ a, Makes k (f a)) :
    Makes (n + k) (m >>= f) := by
  intro b c b' h
  obtain ⟨a, b₁, hrun, hrest⟩ := exists_of_bind h
  have hfirst := hm b a b₁ hrun
  have hsecond := hf a b₁ c b' hrest
  omega

theorem returning {f : α → β} (hm : Makes n m) : Makes n (do return f (← m)) :=
  hm.bind fun a => .pure (f a)

theorem mapM {f : β → Build α} (hf : ∀ x, Makes 0 (f x)) : ∀ l : List β, Makes 0 (l.mapM f)
  | [] => by
    rw [List.mapM_nil]
    exact .pure []
  | x :: l => by
    rw [List.mapM_cons]
    exact (hf x).bind fun _ => (mapM hf l).bind fun _ => .pure _

theorem forM {f : β → Build PUnit} (hf : ∀ x, Makes 0 (f x)) : ∀ l : List β, Makes 0 (l.forM f)
  | [] => .pure _
  | x :: l => (hf x).bind fun _ => forM hf l

end Makes

theorem makes_getDecl (id : DeclId) : Makes 0 (getDecl id) := by
  intro b d b' h
  obtain ⟨_, -, hrest⟩ := Option.bind_eq_some_iff.mp h
  cases hrest
  exact Nat.le_refl _

theorem makes_getType (id : TypeId) : Makes 0 (getType id) := by
  intro b t b' h
  obtain ⟨_, -, hrest⟩ := Option.bind_eq_some_iff.mp h
  cases hrest
  exact Nat.le_refl _

theorem makes_addDecl (d : Decl) : Makes 1 (addDecl d) := by
  rintro b _ _ ⟨⟩
  exact Nat.le_of_eq (Context.nodeCount_addDecl d)

theorem makes_addStmt (s : Stmt) : Makes 1 (addStmt s) := by
  rintro b _ _ ⟨⟩
  exact Nat.le_of_eq (Context.nodeCount_addStmt s)

theorem makes_addType (t : TypeNode) : Makes 1 (addType t) := by
  rintro b _ _ ⟨⟩
  exact Nat.le_of_eq (Context.nodeCount_addType t)

theorem makes_updateDecl (id : DeclId) (f : Decl → Decl) : Makes 0 (updateDecl id f) := by
  refine (makes_getDecl id).bind (k := 0) fun _ => ?_
  rintro b _ _ ⟨⟩
  exact Nat.le_of_eq (Context.nodeCount_modifyDecl id f)

theorem makes_builtin (kind : BuiltinKind) : Makes 1 (builtin kind) := by
  intro b t b' h
  obtain ⟨_, _, hget, hrest⟩ := exists_of_bind h
  cases hget
  cases hlookup : b.builtins.lookup kind with
  | some t' =>
    rw [hlookup] at hrest
    cases hrest
    exact Nat.le_succ _
  | none =>
    rw [hlookup] at hrest
    cases hrest
    exact Nat.le_of_eq (Context.nodeCount_addType _)

theorem makes_addToContext (parent child : DeclId) : Makes 0 (addToContext parent child) :=
  (makes_updateDecl parent _).bind fun _ => makes_updateDecl child _

theorem makes_declare (parent : DeclId) (d : Decl) : Makes 1 (declare parent d) :=
  (makes_addDecl d).bind fun id => (makes_addToContext parent id).bind fun _ => .pure id

theorem makes_qualified (parent : DeclId) (s : String) : Makes 0 (qualified parent s) :=
  (makes_getDecl parent).returning

theorem makes_recordType (decl : DeclId) : Makes 1 (recordType decl) :=
  (makes_getDecl decl).bind fun _ => (makes_addType _).bind fun t =>
    (makes_updateDecl decl _).bind fun _ => .pure t

theorem makes_functionType (result : TypeId) (params : List TypeId) :
    Makes 1 (functionType result params) :=
  (Makes.mapM (fun p => (makes_getType p).returning) params).bind fun _ =>
    (makes_getType result).bind fun _ => makes_addType _

theorem makes_function (parent : DeclId) (name : String) (type : TypeId) (params : List DeclId)
    (body : Option StmtId) (range : SourceRange) :
    Makes 1 (function parent name type params body range) :=
  (makes_qualified parent name).bind fun _ => (makes_declare parent _).bind fun id =>
    (Makes.forM (fun p => makes_updateDecl p _) params).bind fun _ => .pure id

theorem makes_var (parent : DeclId) (name : String) (type : QualType) (init : Option StmtId)
    (range : SourceRange) : Makes 1 (var parent name type init range) :=
  (makes_addDecl _).bind fun id => (makes_addToContext parent id).bind fun _ =>
    (makes_qualified parent name).bind fun _ => (makes_updateDecl id _).bind fun _ => .pure id

theorem makes_record (parent : DeclId) (name : String) (range : SourceRange) :
    Makes 2 (record parent name range) :=
  (makes_qualified parent name).bind fun _ => (makes_declare parent _).bind fun id =>
    (makes_recordType id).bind fun t => .pure (id, t)

theorem makes_field (parent : DeclId) (name : String) (type : QualType) (range : SourceRange) :
    Makes 1 (field parent name type range) :=
  (makes_qualified parent name).bind fun _ => makes_declare parent _

theorem makes_intLiteral (value : Int) (range : SourceRange) : Makes 2 (intLiteral value range) :=
  (makes_builtin .int).bind fun _ => makes_addStmt _

end Build

end SyntaxExport
