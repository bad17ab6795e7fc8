import SyntaxExport.Proofs.Pass.Filling
import SyntaxExport.Proofs.Walk

/-!
# Nested definitions

Where the tree of a site has no fault at some nesting, nothing is defined inside itself: every level
takes one from the nesting, and the tree has a fault where nothing is left of it. A chain of
definitions then meets no node twice and is no longer than the arenas, so the nesting that a pass
allows is as good as any other that is enough (`Site.tokens_nestingBound`).
-/

namespace SyntaxExport

open Relation (ReflTransGen TransGen)

/-- Tokens among which writing does not end. -/
def Faultless (ts : List (Token Item)) : Prop :=
  ∀ e, .leaf (.fault e) ∉ ts

/-- Tokens that can be filled are faultless. -/
theorem faultless_of_fillTokens {ctx : Context} {opts : Options} :
    ∀ {ts : List (Token Item)} {s : Slots} {x : List Call × Slots},
    fillTokens ctx opts ts s = .ok x → Faultless ts
  | [], _, _, _ => nofun
  | t :: ts, s, x, h => by
    rw [fillTokens] at h
    split at h
    · cases h
    · next calls s₁ ht =>
      split at h
      · cases h
      · next hrest =>
        intro e he
        rcases List.mem_cons.mp he with rfl | he
        · cases ht
        · exact faultless_of_fillTokens hrest e he

theorem Tree.faultless_of_fill {ctx : Context} {opts : Options} {t : Tree Item} {s : Slots}
    {x : Value × Slots} (h : t.fill ctx opts s = .ok x) : Faultless t.tokens := by
  have htokens : fillTokens ctx opts t.tokens s = .ok (x.1.tokens, x.2) := by
    rw [Tree.fillTokens_tokens, h]
    rfl
  exact faultless_of_fillTokens htokens

/-- A place where a node is defined. -/
def Token.isDefine : Token Item → Bool
  | .leaf (.define _) => true
  | _ => false

namespace Site

/-- The node of an arena that a site defines. -/
def visit? : Site → Option Visit
  | .decl id => id.map .decl
  | .stmt id => id.map .stmt
  | .comment id => id.map .comment

theorem visit?_inj {s u : Site} {v : Visit} (hs : s.visit? = some v) (hu : u.visit? = some v) :
    s = u := by
  cases s <;> cases u <;> obtain ⟨i, rfl, rfl⟩ := Option.map_eq_some_iff.mp hs <;>
    obtain ⟨j, rfl, hj⟩ := Option.map_eq_some_iff.mp hu <;> cases hj <;> rfl

variable (ctx : Context) (opts : Options)

/-- The layout of `s` defines `u`. -/
def Defines (s u : Site) : Prop :=
  .leaf (.define u) ∈ (s.layout ctx opts).tree.tokens

variable {ctx : Context} {opts : Options} {s u : Site}

/-- Absent nodes and nodes outside their arenas define nothing. -/
theorem exists_visit_of_defines (h : Defines ctx opts s u) :
    ∃ v, s.visit? = some v ∧ ctx.CanHold v := by
  have hdefined : (s.layout ctx opts).tree.tokens.any Token.isDefine = true :=
    List.any_eq_true.mpr ⟨_, h, rfl⟩
  cases s with
  | decl id =>
    cases id with
    | none => cases hdefined
    | some id =>
      refine ⟨.decl id, rfl, ?_, fun h => by cases h⟩
      rw [Context.inside?]
      cases hd : ctx.decl? id with
      | none =>
        rw [layout, hd] at hdefined
        cases hdefined
      | some d => rfl
  | stmt id =>
    cases id with
    | none => cases hdefined
    | some id =>
      refine ⟨.stmt id, rfl, ?_, fun h => by cases h⟩
      rw [Context.inside?]
      cases hs : ctx.stmt? id with
      | none =>
        rw [layout, hs] at hdefined
        cases hdefined
      | some s => rfl
  | comment id =>
    cases id with
    | none => cases hdefined
    | some id =>
      refine ⟨.comment id, rfl, ?_, fun h => by cases h⟩
      rw [Context.inside?]
      cases hc : ctx.comment? id with
      | none =>
        rw [layout, hc] at hdefined
        cases hdefined
      | some c => rfl

/-! ### Levels of a tree -/

theorem tokens_tree_succ (n : Nat) : (s.tree ctx opts (n + 1)).tokens
    = (s.layout ctx opts).tree.tokens.flatMap
      (Tree.expandToken (Item.expand (tree ctx opts n))) :=
  Tree.tokens_bind _ _

theorem faultless_layout {n : Nat} (h : Faultless (s.tree ctx opts (n + 1)).tokens) :
    Faultless (s.layout ctx opts).tree.tokens := by
  intro e he
  refine h e ?_
  rw [tokens_tree_succ]
  exact List.mem_flatMap.mpr ⟨_, he, List.mem_singleton_self _⟩

theorem faultless_of_defines {n : Nat} (h : Faultless (s.tree ctx opts (n + 1)).tokens)
    (hu : Defines ctx opts s u) : Faultless (u.tree ctx opts n).tokens := by
  intro e he
  refine h e ?_
  rw [tokens_tree_succ]
  exact List.mem_flatMap.mpr ⟨_, hu, he⟩

/-- What is defined inside a site with a faultless tree has a faultless layout. -/
theorem faultless_of_reach {n : Nat} (h : Faultless (s.tree ctx opts n).tokens)
    (hu : ReflTransGen (Defines ctx opts) s u) : Faultless (u.layout ctx opts).tree.tokens := by
  have htree : ∃ m, Faultless (u.tree ctx opts (m + 1)).tokens := by
    induction hu with
    | refl =>
      cases n with
      | zero => exact absurd List.mem_cons_self (h .cyclic)
      | succ n => exact ⟨n, h⟩
    | tail _ hdefines ih =>
      obtain ⟨m, hm⟩ := ih
      have hinner := faultless_of_defines hm hdefines
      cases m with
      | zero => exact absurd List.mem_cons_self (hinner .cyclic)
      | succ m => exact ⟨m, hinner⟩
  obtain ⟨m, hm⟩ := htree
  exact faultless_layout hm

theorem tokens_tree_congr {m n : Nat} (h : ∀ u, Defines ctx opts s u →
      (u.tree ctx opts m).tokens = (u.tree ctx opts n).tokens) :
    (s.tree ctx opts (m + 1)).tokens = (s.tree ctx opts (n + 1)).tokens := by
  rw [tokens_tree_succ, tokens_tree_succ]
  refine List.flatMap_congr fun t ht => ?_
  cases t with
  | container | variant | close | tag => rfl
  | leaf a =>
    cases a with
    | define u => exact h u ht
    | scalar | identity | location | fault => rfl

/-- More nesting than is enough makes no difference. -/
theorem tokens_tree_of_le : ∀ {m n : Nat} {s : Site}, m ≤ n →
    Faultless (s.tree ctx opts m).tokens → (s.tree ctx opts n).tokens = (s.tree ctx opts m).tokens
  | 0, _, _, _, h => absurd List.mem_cons_self (h .cyclic)
  | _ + 1, _ + 1, _, hle, h =>
    tokens_tree_congr fun _ hu =>
      tokens_tree_of_le (Nat.le_of_succ_le_succ hle) (faultless_of_defines h hu)

theorem acc_of_faultless : ∀ {n : Nat} {s : Site}, Faultless (s.tree ctx opts n).tokens →
    Acc (fun u s => Defines ctx opts s u) s
  | 0, _, h => absurd List.mem_cons_self (h .cyclic)
  | _ + 1, s, h => Acc.intro s fun _ hu => acc_of_faultless (faultless_of_defines h hu)

/-- Where less nesting makes a difference, a chain of definitions uses it up. -/
theorem descends_of_tokens_ne : ∀ {m n : Nat} {s : Site}, m ≤ n →
    (s.tree ctx opts m).tokens ≠ (s.tree ctx opts n).tokens → Descends (Defines ctx opts) s m
  | 0, _, s, _, _ => .zero s
  | m + 1, n + 1, s, hle, hne => by
    obtain ⟨u, hu, hne⟩ : ∃ u, Defines ctx opts s u
        ∧ (u.tree ctx opts m).tokens ≠ (u.tree ctx opts n).tokens := by
      by_contra hall
      refine hne (tokens_tree_congr fun u hu => ?_)
      by_contra htokens
      exact hall ⟨u, hu, htokens⟩
    exact .step hu (descends_of_tokens_ne (Nat.le_of_succ_le_succ hle) hne)

/-! ### The nesting that a pass allows -/

/-- The place of a site among those that can define others. -/
def place (ctx : Context) (s : Site) : Nat :=
  s.visit?.elim 0 ctx.place

/-- A chain of definitions that does not come back is shorter than the nesting that a pass allows. -/
theorem not_descends (hacyclic : ∀ u, ReflTransGen (Defines ctx opts) s u →
    ¬ TransGen (Defines ctx opts) u u) : ¬ Descends (Defines ctx opts) s ctx.nestingBound := by
  intro hchain
  have hle : ctx.nestingBound ≤ ctx.nestingBound - 1 := by
    refine hchain.le_of_acyclic (place ctx) hacyclic ?_ ?_
    · rintro u ⟨w, hw⟩
      obtain ⟨v, hv, hhold⟩ := exists_visit_of_defines hw
      rw [place, hv]
      exact Context.place_lt hhold
    · rintro u u' ⟨w, hw⟩ ⟨w', hw'⟩ hplace
      obtain ⟨v, hv, hhold⟩ := exists_visit_of_defines hw
      obtain ⟨v', hv', hhold'⟩ := exists_visit_of_defines hw'
      rw [place, place, hv, hv'] at hplace
      have hsame : v = v' := Context.eq_of_place hhold hhold' hplace
      rw [← hsame] at hv'
      exact visit?_inj hv hv'
  have hpos : 0 < ctx.nestingBound := Nat.succ_pos _
  omega

/-- The nesting that a pass allows is enough wherever some nesting is. -/
theorem tokens_nestingBound {n : Nat} (h : Faultless (s.tree ctx opts n).tokens) :
    (s.tree ctx opts ctx.nestingBound).tokens = (s.tree ctx opts n).tokens := by
  rcases Nat.le_total n ctx.nestingBound with hle | hle
  · exact tokens_tree_of_le hle h
  by_contra hne
  refine not_descends (fun u hu => ?_) (descends_of_tokens_ne hle hne)
  exact not_transGen_of_acc (acc_of_reflTransGen (acc_of_faultless h) hu)

end Site

end SyntaxExport
