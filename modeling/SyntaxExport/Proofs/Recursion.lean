import Mathlib.Logic.Function.Iterate
import SyntaxExport.Proofs.Pass.Sound

/-!
# The depth of the recursion

Walks and passes recur from a position to other positions, and no data gets smaller on the way. What
bounds them is where their calls lead: the calls of a walk keep to what a node holds, and those of a pass
to what a site defines (`Follows`). If no chain of `n` such steps begins at the first call, then the
body of the recursion put into itself `n` times says everything, whatever is put in its innermost place
(`Follows.iterate_congr`).

So where no node is defined inside itself the recursion ends without a bound of its own, and nests no
more calls than there are declarations, statements and comments and one (`Context.recursion_ends`).
-/

namespace SyntaxExport

open Relation (ReflTransGen TransGen)

/-! ### Chains -/

namespace Descends

variable {α : Type} {r : α → α → Prop} {a b : α} {m n : Nat}

/-- The beginning of a chain is a chain. -/
theorem of_le (hle : m ≤ n) (h : Descends r a n) : Descends r a m := by
  induction h generalizing m with
  | zero a =>
    obtain rfl := Nat.le_zero.mp hle
    exact .zero a
  | @step a b n hstep _ ih =>
    cases m with
    | zero => exact .zero a
    | succ m => exact .step hstep (ih (Nat.le_of_succ_le_succ hle))

/-- A chain can begin earlier. -/
theorem of_reach (hab : ReflTransGen r a b) (h : Descends r b n) : Descends r a n := by
  induction hab using ReflTransGen.head_induction_on with
  | refl => exact h
  | head hstep _ ih => exact (Descends.step hstep ih).of_le (Nat.le_succ n)

end Descends

/-! ### Bodies of recursions -/

section Bodies

variable {α β : Type} {r : α → α → Prop} {body : (α → β) → α → β}

/-- The calls of the body of a recursion are for what a relation leads to. -/
def Follows (r : α → α → Prop) (body : (α → β) → α → β) : Prop :=
  ∀ (f g : α → β) (a : α), (∀ b, r a b → f b = g b) → body f a = body g a

/-- The recursion from `a` ends, and nests no more than `depth` calls. -/
structure Ends (r : α → α → Prop) (body : (α → β) → α → β) (a : α) (depth : Nat) : Prop where
  /-- The calls behind the first on a way down are fewer than `depth`. -/
  nesting : ∀ {n : Nat}, Descends r a n → n < depth
  /-- It makes no difference what stands for the calls that are nested deeper. -/
  cut : ∀ {n : Nat}, depth ≤ n → ∀ f g : α → β, body^[n] f a = body^[depth] g a
  /-- The recursion that is cut off there does what the body says, wherever it comes to. -/
  unfolds : ∀ {b : α}, ReflTransGen r a b → ∀ f : α → β, body (body^[depth] f) b = body^[depth] f b
  /-- Nothing else does what the body says. -/
  unique : ∀ {f : α → β}, (∀ b, ReflTransGen r a b → body f b = f b) →
    ∀ g : α → β, body^[depth] g a = f a

namespace Follows

theorem iterate_congr (h : Follows r body) : ∀ {n : Nat} {a : α}, ¬ Descends r a n →
    ∀ f g : α → β, body^[n] f a = body^[n] g a
  | 0, a, hshort, _, _ => absurd (.zero a) hshort
  | n + 1, a, hshort, f, g => by
    rw [Function.iterate_succ_apply', Function.iterate_succ_apply']
    refine h _ _ a fun b hab => ?_
    have hb : ¬ Descends r b n := fun hchain => hshort (.step hab hchain)
    exact iterate_congr h hb f g

/-- A function that does what the body says is the body put into itself often enough. -/
theorem iterate_eq (h : Follows r body) {f : α → β} : ∀ {n : Nat} {a : α}, ¬ Descends r a n →
    (∀ b, ReflTransGen r a b → body f b = f b) → ∀ g : α → β, body^[n] g a = f a
  | 0, a, hshort, _, _ => absurd (.zero a) hshort
  | n + 1, a, hshort, hf, g => by
    have hinner : ∀ b, r a b → body^[n] g b = f b := by
      intro b hab
      have hb : ¬ Descends r b n := fun hchain => hshort (.step hab hchain)
      exact iterate_eq h hb (fun c hc => hf c (.head hab hc)) g
    rw [Function.iterate_succ_apply', h _ f a hinner]
    exact hf a .refl

theorem ends (h : Follows r body) {a : α} {depth : Nat} (hshort : ¬ Descends r a depth) :
    Ends r body a depth where
  nesting hchain := by
    by_contra hle
    exact hshort (hchain.of_le (Nat.not_lt.mp hle))
  cut hle f g := by
    obtain ⟨k, rfl⟩ := Nat.exists_eq_add_of_le hle
    rw [Function.iterate_add_apply]
    exact h.iterate_congr hshort _ g
  unfolds hab f := by
    have hb := fun hchain => hshort (Descends.of_reach hab hchain)
    rw [← Function.iterate_succ_apply' body, Function.iterate_succ_apply]
    exact h.iterate_congr hb _ f
  unique hf g := h.iterate_eq hshort hf g

end Follows

end Bodies

/-! ### Walks -/

/-- A fold asks its step for nothing but the elements of the list. -/
theorem foldlM_congr {α β ε : Type} {f g : β → α → Except ε β} : ∀ {l : List α},
    (∀ a ∈ l, ∀ b, f b a = g b a) → ∀ b, l.foldlM f b = l.foldlM g b
  | [], _, _ => rfl
  | a :: l, h, b => by
    have hrest := foldlM_congr fun a' ha' => h a' (List.mem_cons_of_mem a ha')
    rw [List.foldlM_cons, List.foldlM_cons, h a List.mem_cons_self b]
    exact congrArg _ (funext hrest)

namespace Context

variable (ctx : Context)

/-- A call of a walk, where `next` stands for the calls inside it. -/
def visitBody (comments : Bool) (next : Visit → List Visit → Except WalkError (List Visit))
    (v : Visit) (seen : List Visit) : Except WalkError (List Visit) :=
  match ctx.inside? v, v with
  | none, _ => .error (.missing v)
  | some inner, .comment _ =>
    if comments then inner.foldlM (fun seen w => next w seen) (v :: seen) else .ok (v :: seen)
  | some inner, _ => inner.foldlM (fun seen w => next w seen) (v :: seen)

theorem visitFrom_eq_iterate (comments : Bool) : ∀ (fuel : Nat) (v : Visit) (seen : List Visit),
    ctx.visitFrom comments fuel seen v = (ctx.visitBody comments)^[fuel] (fun _ _ => .error .cyclic) v seen
  | 0, _, _ => rfl
  | fuel + 1, v, seen => by
    have hinner : ctx.visitFrom comments fuel
        = fun seen w => (ctx.visitBody comments)^[fuel] (fun _ _ => .error .cyclic) w seen := by
      funext seen w
      exact visitFrom_eq_iterate comments fuel w seen
    rw [Function.iterate_succ_apply', visitFrom.eq_def]
    simp only [hinner]
    rfl

/-- A walk goes on with what a node holds. -/
theorem follows_visitBody (comments : Bool) : Follows ctx.Holds (ctx.visitBody comments) := by
  intro f g v h
  funext seen
  unfold visitBody
  cases hinner : ctx.inside? v with
  | none => rfl
  | some inner =>
    have hfold : inner.foldlM (fun seen w => f w seen) (v :: seen)
        = inner.foldlM (fun seen w => g w seen) (v :: seen) :=
      foldlM_congr (fun w hw seen => congrFun (h w ⟨inner, hinner, hw⟩) seen) (v :: seen)
    cases v <;> simp only [hfold]

end Context

/-! ### Passes -/

namespace Pass

variable {σ : Type} [DocumentWriter σ] (ctx : Context) (opts : Options)

/-- The definition of a site, where `define` stands for the definitions inside it. -/
def siteBody (define : Site → PassStep σ) (s : Site) : PassStep σ :=
  layout ctx opts define (s.layout ctx opts)

theorem site_eq_iterate : ∀ fuel : Nat,
    (site ctx opts fuel : Site → PassStep σ) = (siteBody ctx opts)^[fuel] fun _ => fail .cyclic
  | 0 => rfl
  | fuel + 1 => by
    rw [Function.iterate_succ_apply', ← site_eq_iterate fuel]
    rfl

/-- A pass goes on with what a site defines. -/
theorem follows_siteBody :
    Follows (Site.Defines ctx opts) (siteBody ctx opts : (Site → PassStep σ) → Site → PassStep σ) := by
  intro f g s h
  rw [siteBody, siteBody, layout, layout, Layout.tokens_eq (s.wellFormed_layout ctx opts)]
  refine congrArg all (List.map_congr_left fun t ht => ?_)
  cases t with
  | container | variant | close | tag => rfl
  | leaf a =>
    cases a with
    | define u => exact h u ht
    | scalar | identity | location | fault => rfl

end Pass

/-! ### Translation units without cycles -/

namespace Context

variable {ctx : Context} {root : DeclId}

/-- Where no node is defined inside itself, the walk of a translation unit and every pass over it end,
and nest no more calls than there are declarations, statements and comments and one. With so much fuel
they never run out of it: whatever else were to happen there, the walk and the pass would be the same. -/
theorem recursion_ends (hacyclic : ctx.Acyclic (.decl root)) :
    (∀ comments,
      Ends ctx.Holds (ctx.visitBody comments) (.decl root) ctx.nestingBound ∧
      ∀ fuel, ctx.nestingBound ≤ fuel → ∀ seen,
        ctx.visitFrom comments fuel seen (.decl root) ≠ .error .cyclic ∧
        ∀ below, (ctx.visitBody comments)^[fuel] below (.decl root) seen
          = ctx.visitFrom comments fuel seen (.decl root)) ∧
    ∀ (opts : Options) (σ : Type) [DocumentWriter σ],
      Ends (Site.Defines ctx opts) (Pass.siteBody ctx opts : (Site → PassStep σ) → Site → PassStep σ)
        (.decl (some root)) ctx.nestingBound ∧
      ∀ fuel, ctx.nestingBound ≤ fuel → ∀ below : Site → PassStep σ,
        (Pass.siteBody ctx opts)^[fuel] below (.decl (some root))
          = Pass.site ctx opts fuel (.decl (some root)) := by
  have hholds : ¬ Descends ctx.Holds (.decl root) ctx.nestingBound := hacyclic.not_descends
  have hdefines : ∀ opts, ¬ Descends (Site.Defines ctx opts) (.decl (some root)) ctx.nestingBound :=
    fun opts => Site.not_descends fun _ hu => Site.not_transGen_of_acyclic hacyclic hu
  refine ⟨fun comments => ⟨(ctx.follows_visitBody comments).ends hholds, ?_⟩, fun opts σ _ => ?_⟩
  · intro fuel hfuel seen
    have hshort : ¬ Descends ctx.Holds (.decl root) fuel := fun hchain => hholds (hchain.of_le hfuel)
    refine ⟨fun hcyclic => hshort (descends_of_cyclic hcyclic), fun below => ?_⟩
    rw [visitFrom_eq_iterate]
    exact congrFun ((ctx.follows_visitBody comments).iterate_congr hshort below _) seen
  · have hfollows := Pass.follows_siteBody (σ := σ) ctx opts
    refine ⟨hfollows.ends (hdefines opts), fun fuel hfuel below => ?_⟩
    have hshort := fun hchain => hdefines opts (Descends.of_le hfuel hchain)
    rw [Pass.site_eq_iterate]
    exact hfollows.iterate_congr hshort below _

/-- A translation unit that has a record twice and a position outside its arena. The record follows
itself and is its own parent, a pointer points to itself, and a statement has its child twice, which
mentions the variable that has the statement. -/
def tangledUnit : Context where
  decls := #[{ kind := .translationUnit, context := some { decls := [⟨1⟩, ⟨1⟩, ⟨9⟩] } },
    { kind := .record, semanticParent := some ⟨1⟩, lexicalParent := some ⟨1⟩,
      redeclaration := some (.previous ⟨1⟩), typeForDecl := some ⟨0⟩,
      context := some { decls := [⟨2⟩] }, payload := .record {} },
    { kind := .var, semanticParent := some ⟨1⟩, valueType := some { type := some ⟨0⟩ },
      payload := .var { init := some ⟨0⟩ } }]
  stmts := #[{ kind := .compoundStmt, children := [some ⟨1⟩, none, some ⟨1⟩] },
    { kind := .declRefExpr, payload := .declRef (some ⟨2⟩) none }]
  types := #[{ kind := .pointer, payload := .child (some ⟨0⟩) }]

theorem acyclic_tangledUnit (v : Visit) : tangledUnit.Acyclic v :=
  acyclic_of_ranks (fun v => if v.family = .decl then 10 - v.index else 5 - v.index)
    (by decide) (by decide) (by decide) v

/-- Six calls are the most that can be nested, and six levels are enough. -/
theorem recursion_ends_tangledUnit : tangledUnit.nestingBound = 6 ∧ tangledUnit.Acyclic (.decl ⟨0⟩) ∧
    Descends tangledUnit.Holds (.decl ⟨0⟩) 4 ∧
    (∀ n, Descends tangledUnit.Holds (.decl ⟨0⟩) n → n < 6) ∧
    ∀ below : Site → PassStep Recorder,
      (Pass.siteBody tangledUnit {})^[6] below (.decl (some ⟨0⟩))
        = Pass.site tangledUnit {} 6 (.decl (some ⟨0⟩)) := by
  obtain ⟨hwalk, hpass⟩ := recursion_ends (acyclic_tangledUnit (.decl ⟨0⟩))
  refine ⟨rfl, acyclic_tangledUnit _, ?_, fun n => (hwalk true).1.nesting, ?_⟩
  · have hrecord : tangledUnit.Holds (.decl ⟨0⟩) (.decl ⟨1⟩) := ⟨_, rfl, by decide⟩
    have hvar : tangledUnit.Holds (.decl ⟨1⟩) (.decl ⟨2⟩) := ⟨_, rfl, by decide⟩
    have hbody : tangledUnit.Holds (.decl ⟨2⟩) (.stmt ⟨0⟩) := ⟨_, rfl, by decide⟩
    have hmention : tangledUnit.Holds (.stmt ⟨0⟩) (.stmt ⟨1⟩) := ⟨_, rfl, by decide⟩
    exact .step hrecord (.step hvar (.step hbody (.step hmention (.zero _))))
  · exact (hpass {} Recorder).2 6 (Nat.le_refl 6)

end Context

end SyntaxExport
