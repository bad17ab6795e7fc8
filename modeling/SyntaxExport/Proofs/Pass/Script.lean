import SyntaxExport.Proofs.Pass.Expansion

/-!
# Scripts of passes

What a pass does with its writer depends on the numbering of identities in nothing but the texts of
the identities. `script` lists the acts of a pass over a tree beforehand, with identities in the place
of their texts, and a run over the tree performs these acts one after the other, whatever the writer
and whatever was numbered before (`Pass.run_eq_script`).
-/

namespace SyntaxExport

/-- A step of a pass, whatever the text of an identity. -/
inductive Act where
  | call (c : Call)
  | identity (n : NodeRef)
  /-- The cursor moves to a location. -/
  | move (loc : Option SourceLocation)
  | fail (e : ExportError)
  deriving Repr

namespace Act

/-- The cursor after an act that does not fail. -/
def advance (c : LocationCursor) : Act → LocationCursor
  | .move loc => c.advance loc
  | _ => c

/-- A field with a scalar. -/
def field (name : String) (value : Scalar) : List Act :=
  [.call (.tag name), .call (.leaf value)]

variable {σ : Type} [DocumentWriter σ]

/-- The part of a pass that an act is. -/
def perform (mode : IdentityMode) : Act → PassStep σ
  | .call c => Pass.call c
  | .identity n => Pass.identity mode n
  | .move loc => Pass.moveTo loc
  | .fail e => Pass.fail e

/-- Acts one after the other, up to the first that fails. -/
def performAll (mode : IdentityMode) (as : List Act) : PassStep σ :=
  Pass.all (as.map (perform mode))

end Act

section Script

variable (ctx : Context) (paths : PathRule)

/-- The fields of a relative location. -/
def LocationDelta.acts : LocationDelta → List (List Act)
  | .absent => []
  | .column c => [Act.field "column" (.unsigned c)]
  | .line l c => [Act.field "line" (.unsigned l), Act.field "column" (.unsigned c)]
  | .file f l c =>
    [match ctx.fileName? f with
      | none => [.call (.tag "file"), .fail (.unknownFile f)]
      | some name => Act.field "file" (.string (paths.normalize name)),
    Act.field "line" (.unsigned l), Act.field "column" (.unsigned c)]

/-- What a pass does for a leaf of a tree that defines no further nodes. -/
def Item.acts (c : LocationCursor) : Item → List Act
  | .scalar x => [.call (.leaf x)]
  | .identity n => [.identity n]
  | .location loc =>
    ([Act.call (.container .object (c.delta loc).fieldCount)] :: (c.delta loc).acts ctx paths
      ++ [[Act.move loc], [Act.call .close]]).flatten
  | .define _ => [.fail .cyclic]
  | .fault e => [.fail e]

/-- What a pass does for a token. -/
def Token.acts (c : LocationCursor) : Token Item → List Act
  | .container shape arity => [.call (.container shape arity)]
  | .variant name => [.call (.variant name)]
  | .close => [.call .close]
  | .tag name => [.call (.tag name)]
  | .leaf a => a.acts ctx paths c

/-- What a pass does for tokens, from a cursor. -/
def script : LocationCursor → List (Token Item) → List Act
  | _, [] => []
  | c, t :: ts => t.acts ctx paths c ++ script ((t.acts ctx paths c).foldl Act.advance c) ts

end Script

namespace Pass

variable {σ : Type} [DocumentWriter σ] {mode : IdentityMode}

theorem performAll_append (as bs : List Act) (p : Pass σ) :
    Act.performAll mode (as ++ bs) p = match Act.performAll mode as p with
      | (.ok (), q) => Act.performAll mode bs q
      | (.error e, q) => (.error e, q) := by
  rw [Act.performAll, List.map_append, all_append, all]
  simp only [all_singleton]
  rfl

theorem performAll_flatten (ass : List (List Act)) :
    (Act.performAll mode ass.flatten : PassStep σ) = all (ass.map (Act.performAll mode)) := by
  have hflat : ass.flatten.map (Act.perform mode : Act → PassStep σ)
      = ass.flatMap fun as => as.map (Act.perform mode) := by
    rw [List.map_flatten, List.flatMap]
  rw [Act.performAll, hflat, all_flatMap]
  rfl

/-- An act that succeeds leaves the cursor where it says. -/
theorem cursor_of_perform {a : Act} {p q : Pass σ} (h : a.perform mode p = (.ok (), q)) :
    q.cursor = a.advance p.cursor := by
  obtain ⟨cursor, identities, writer⟩ := p
  have hcall : ∀ {c : Call} {t : IdentityTable}, call c ⟨cursor, t, writer⟩ = (.ok (), q) →
      q.cursor = cursor := by
    intro c t hc
    rw [call] at hc
    split at hc <;> cases hc
    rfl
  cases a with
  | call c => exact hcall h
  | identity n => exact hcall h
  | move loc => exact (congrArg (fun x => x.2.cursor) h).symm
  | fail e => cases h

theorem cursor_of_performAll : ∀ {as : List Act} {p q : Pass σ},
    Act.performAll mode as p = (.ok (), q) → q.cursor = as.foldl Act.advance p.cursor
  | [], p, q, h => (congrArg (fun x => x.2.cursor) h).symm
  | a :: as, p, q, h => by
    rw [Act.performAll, List.map_cons, all] at h
    split at h
    · next p₁ hp => rw [cursor_of_performAll h, cursor_of_perform hp, List.foldl_cons]
    · cases congrArg Prod.fst h

/-! ### Tokens -/

theorem deltaFields_eq_acts (ctx : Context) (paths : PathRule) (d : LocationDelta) :
    (deltaFields ctx paths d : List (PassStep σ))
      = (d.acts ctx paths).map (Act.performAll mode) := by
  cases d with
  | absent | column | line => rfl
  | file f l c =>
    rw [deltaFields, LocationDelta.acts, fileField]
    cases ctx.fileName? f <;> rfl

theorem token_eq_acts (ctx : Context) (opts : Options) (t : Token Item) (p : Pass σ) :
    token ctx opts (fun _ => fail .cyclic) t p
      = Act.performAll opts.identityMode (t.acts ctx opts.paths p.cursor) p := by
  have hone : ∀ a : Act, (Act.performAll opts.identityMode [a] : PassStep σ)
      = a.perform opts.identityMode := fun a => all_singleton _
  cases t with
  | container | variant | close | tag =>
    rw [Token.acts, hone]
    rfl
  | leaf a =>
    cases a with
    | scalar | identity | define | fault =>
      rw [Token.acts, Item.acts, hone]
      rfl
    | location loc =>
      rw [Token.acts, Item.acts, performAll_flatten, List.map_append, List.map_cons,
        ← deltaFields_eq_acts]
      simp only [List.map_cons, List.map_nil, hone]
      rfl

theorem all_tokens_eq_script (ctx : Context) (opts : Options) :
    ∀ (ts : List (Token Item)) (p : Pass σ), all (ts.map (token ctx opts fun _ => fail .cyclic)) p
      = Act.performAll opts.identityMode (script ctx opts.paths p.cursor ts) p
  | [], _ => rfl
  | t :: ts, p => by
    rw [List.map_cons, all, token_eq_acts, script, performAll_append]
    cases hacts : Act.performAll opts.identityMode (t.acts ctx opts.paths p.cursor) p with
    | mk result q =>
      cases result with
      | error e => rfl
      | ok =>
        simp only
        rw [all_tokens_eq_script ctx opts ts q, cursor_of_performAll hacts]

/-- A run over a tree performs the acts of its script. -/
theorem run_eq_script (ctx : Context) (opts : Options) (t : Tree Item) (p : Pass σ) :
    run ctx opts t p
      = Act.performAll opts.identityMode (script ctx opts.paths p.cursor t.tokens) p :=
  all_tokens_eq_script ctx opts t.tokens p

end Pass

end SyntaxExport
