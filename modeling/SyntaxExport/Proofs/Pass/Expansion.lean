import SyntaxExport.Proofs.Document.Outline
import SyntaxExport.Proofs.Layout.WellFormed

/-!
# Expanded layouts

A pass defines nodes inside nodes. `Site.tree` puts the layouts of these nodes into the slots that
define them, down to a given nesting, so that a pass over a site is one run over one tree
(`Pass.site_eq_run`). Below that nesting the tree has the fault of a node that is defined inside
itself.
-/

namespace SyntaxExport

namespace Tree

variable {α β : Type}

/-! ### Trees of nodes -/

theorem tupleSize?_bind {f : α → Tree β} (t : Tree α) (hf : ∀ a, (f a).tupleSize? = none) :
    (t.bind f).tupleSize? = t.tupleSize? := by
  cases t with
  | leaf a => exact hf a
  | tuple ts => exact congrArg some (length_bindItems ts f)
  | object | array | variant => rfl

mutual

theorem formed_bind {p : α → Prop} {q : β → Prop} {f : α → Tree β}
    (hf : ∀ a, p a → (f a).Formed q) (hsize : ∀ a, (f a).tupleSize? = none) :
    ∀ t : Tree α, t.Formed p → (t.bind f).Formed q
  | .leaf a, h => hf a h
  | .object fs, h => formed_bindFields hf hsize fs h
  | .array ts, h => formed_bindItems hf hsize ts h
  | .tuple ts, h => formed_bindItems hf hsize ts h
  | .variant tag t, h => by
    refine ⟨formed_bind hf hsize t h.1, ?_⟩
    rw [tupleSize?_bind t hsize]
    exact h.2

theorem formed_bindFields {p : α → Prop} {q : β → Prop} {f : α → Tree β}
    (hf : ∀ a, p a → (f a).Formed q) (hsize : ∀ a, (f a).tupleSize? = none) :
    ∀ fs : List (String × Tree α), FieldsFormed p fs → FieldsFormed q (bindFields fs f)
  | [], _ => trivial
  | (_, t) :: fs, h => ⟨formed_bind hf hsize t h.1, formed_bindFields hf hsize fs h.2⟩

theorem formed_bindItems {p : α → Prop} {q : β → Prop} {f : α → Tree β}
    (hf : ∀ a, p a → (f a).Formed q) (hsize : ∀ a, (f a).tupleSize? = none) :
    ∀ ts : List (Tree α), ItemsFormed p ts → ItemsFormed q (bindItems ts f)
  | [], _ => trivial
  | t :: ts, h => ⟨formed_bind hf hsize t h.1, formed_bindItems hf hsize ts h.2⟩

end

end Tree

/-! ### Sites -/

/-- The document of a site with everything that is defined inside it. -/
def Site.tree (ctx : Context) (opts : Options) : Nat → Site → Tree Item
  | 0, _ => .leaf (.fault .cyclic)
  | fuel + 1, s => (s.layout ctx opts).tree.bind (Item.expand (tree ctx opts fuel))

theorem Site.tupleSize?_tree (ctx : Context) (opts : Options) :
    ∀ (fuel : Nat) (s : Site), (s.tree ctx opts fuel).tupleSize? = none
  | 0, _ => rfl
  | fuel + 1, s => by
    have hdefine : ∀ a : Item, (a.expand (tree ctx opts fuel)).tupleSize? = none := by
      intro a
      cases a with
      | define s => exact tupleSize?_tree ctx opts fuel s
      | scalar | identity | location | fault => rfl
    rw [tree, Tree.tupleSize?_bind _ hdefine,
      Layout.tupleSize?_tree (s.wellFormed_layout ctx opts), s.tupleSize?_layout ctx opts]

/-- A layout with the trees of sites in its slots is a tree of nodes. -/
theorem Layout.formed_bind_tree {ctx : Context} {opts : Options} {fuel : Nat} {l : Layout}
    (h : l.WellFormed) (hsites : ∀ s : Site, (s.tree ctx opts fuel).Formed Item.IsNoRejection) :
    (l.tree.bind (Item.expand (Site.tree ctx opts fuel))).Formed Item.IsNoRejection := by
  refine Tree.formed_bind ?_ ?_ l.tree (Layout.formed_tree l h)
  · intro a ha
    cases a with
    | define s => exact hsites s
    | scalar | identity | location | fault => exact ha
  · intro a
    cases a with
    | define s => exact Site.tupleSize?_tree ctx opts fuel s
    | scalar | identity | location | fault => rfl

theorem Site.formed_tree (ctx : Context) (opts : Options) :
    ∀ (fuel : Nat) (s : Site), (s.tree ctx opts fuel).Formed Item.IsNoRejection
  | 0, _ => nofun
  | fuel + 1, s =>
    Layout.formed_bind_tree (s.wellFormed_layout ctx opts) (formed_tree ctx opts fuel)

namespace Pass

variable {σ : Type}

theorem all_append : ∀ (as bs : List (PassStep σ)) (p : Pass σ),
    all (as ++ bs) p = all [all as, all bs] p
  | [], bs, p => by
    simp only [List.nil_append, all]
    split <;> simp_all
  | step :: as, bs, p => by
    simp only [List.cons_append, all]
    cases step p with
    | mk result q =>
      cases result with
      | error e => rfl
      | ok _ =>
        have ih := all_append as bs q
        simp only [all] at ih
        exact ih

@[simp] theorem all_singleton (step : PassStep σ) : all [step] = step := by
  funext p
  simp only [all]
  split
  · next h => exact h.symm
  · next h => exact h.symm

/-- Parts of parts are the parts themselves. -/
theorem all_flatMap {α : Type} (f : α → List (PassStep σ)) :
    ∀ as : List α, all (as.flatMap f) = all (as.map fun a => all (f a))
  | [] => rfl
  | a :: as => by
    funext p
    rw [List.flatMap_cons, all_append, List.map_cons, all_flatMap f as]
    simp only [all]
    cases all (f a) p with
    | mk result q =>
      cases result with
      | error e => rfl
      | ok _ =>
        simp only
        split <;> simp_all

variable [DocumentWriter σ]

/-- Writes a tree that defines no further nodes. -/
def run (ctx : Context) (opts : Options) (t : Tree Item) : PassStep σ :=
  all (t.tokens.map (token ctx opts fun _ => fail .cyclic))

@[simp] theorem run_leaf (ctx : Context) (opts : Options) (a : Item) :
    (run ctx opts (.leaf a) : PassStep σ)
      = token ctx opts (fun _ => fail .cyclic) (.leaf a) :=
  all_singleton _

/-- A layout is written as the tree with the trees of the defined nodes in their slots. -/
theorem layout_eq_run (ctx : Context) (opts : Options) {l : Layout} (h : l.WellFormed)
    (define : Site → Tree Item) :
    (layout ctx opts (fun s => run ctx opts (define s)) l : PassStep σ)
      = run ctx opts (l.tree.bind (Item.expand define)) := by
  have htoken : ∀ t : Token Item, (token ctx opts (fun s => run ctx opts (define s)) t : PassStep σ)
      = all ((Tree.expandToken (Item.expand define) t).map
          (token ctx opts fun _ => fail .cyclic)) := by
    intro t
    cases t with
    | leaf a =>
      cases a with
      | define s => rfl
      | scalar | identity | location | fault => exact (all_singleton _).symm
    | container | variant | close | tag => exact (all_singleton _).symm
  rw [layout, run, Layout.tokens_eq h, Tree.tokens_bind, List.map_flatMap, all_flatMap]
  exact congrArg all (List.map_congr_left fun t _ => htoken t)

/-- A pass over a site is the run over its tree. -/
theorem site_eq_run (ctx : Context) (opts : Options) :
    ∀ (fuel : Nat) (s : Site),
      (site ctx opts fuel s : PassStep σ) = run ctx opts (s.tree ctx opts fuel)
  | 0, s => (all_singleton _).symm
  | fuel + 1, s => by
    have hdefine : (site ctx opts fuel : Site → PassStep σ)
        = fun s => run ctx opts (s.tree ctx opts fuel) :=
      funext (site_eq_run ctx opts fuel)
    rw [site, hdefine, Site.tree]
    exact layout_eq_run ctx opts (s.wellFormed_layout ctx opts) _

end Pass

end SyntaxExport
