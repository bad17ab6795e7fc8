import Mathlib.Data.List.Nodup
import Mathlib.Data.List.Perm.Subperm
import Mathlib.Logic.Relation
import SyntaxExport.Ast.Walk

/-!
# Walks

A walk lists a node and then the walks of what is defined directly inside it (`Context.Walked`), so
it only ends where no node is defined inside itself (`Context.acyclic_of_walk`). Its fuel is enough:
a walk that runs out of it has come down a path of nodes as long as the fuel, and where no node is
defined inside itself a path is no longer than the arenas (`Context.walk_ne_cyclic`).
-/

namespace SyntaxExport

open Relation (ReflTransGen TransGen)

/-! ### Paths -/

theorem not_transGen_of_acc {α : Type} {r : α → α → Prop} {a : α} (h : Acc (fun b a => r a b) a) :
    ¬ TransGen r a a := by
  induction h with
  | intro a _ ih =>
    intro hcycle
    obtain ⟨b, hb, hba⟩ := TransGen.head'_iff.mp hcycle
    exact ih b hb (.tail' hba hb)

theorem acc_of_reflTransGen {α : Type} {r : α → α → Prop} {a b : α}
    (h : Acc (fun b a => r a b) a) (hab : ReflTransGen r a b) : Acc (fun b a => r a b) b := by
  induction hab with
  | refl => exact h
  | tail _ hstep ih => exact ih.inv hstep

/-- A path on which nothing comes twice is no longer than there are places. -/
theorem length_le_of_pairwise {α : Type} {r : α → α → Prop} {place : α → Nat} {bound : Nat}
    {path : List α} (hpath : path.Pairwise r) (hacyclic : ∀ a ∈ path, ¬ r a a)
    (hbound : ∀ a ∈ path, place a < bound)
    (hplace : ∀ a ∈ path, ∀ b ∈ path, place a = place b → a = b) : path.length ≤ bound := by
  have hnodup : path.Nodup := by
    refine List.Pairwise.imp_of_mem (fun ha _ hab => ?_) hpath
    rintro rfl
    exact hacyclic _ ha hab
  have hplaces : (path.map place).Nodup := hnodup.map_on hplace
  have hrange : path.map place ⊆ List.range bound := by
    intro n hn
    obtain ⟨a, ha, rfl⟩ := List.mem_map.mp hn
    exact List.mem_range.mpr (hbound a ha)
  have hle := (hplaces.subperm hrange).length_le
  rw [List.length_map, List.length_range] at hle
  exact hle

/-- A chain of `n` steps begins at `a`. -/
inductive Descends {α : Type} (r : α → α → Prop) : α → Nat → Prop where
  | zero (a : α) : Descends r a 0
  | step {a b : α} {n : Nat} : r a b → Descends r b n → Descends r a (n + 1)

namespace Descends

variable {α : Type} {r : α → α → Prop} {a : α} {n : Nat}

/-- The elements of a chain that are left by a step. -/
theorem exists_path (h : Descends r a n) : ∃ path : List α, path.length = n
    ∧ path.Pairwise (TransGen r) ∧ ∀ b ∈ path, ReflTransGen r a b ∧ ∃ c, r b c := by
  induction h with
  | zero => exact ⟨[], rfl, .nil, nofun⟩
  | @step a b n hstep _ ih =>
    obtain ⟨path, hlength, hpath, hmem⟩ := ih
    refine ⟨a :: path, by rw [List.length_cons, hlength], ?_, ?_⟩
    · exact List.pairwise_cons.mpr ⟨fun c hc => .head' hstep (hmem c hc).1, hpath⟩
    · intro c hc
      rcases List.mem_cons.mp hc with rfl | hc
      · exact ⟨.refl, b, hstep⟩
      · exact ⟨.head hstep (hmem c hc).1, (hmem c hc).2⟩

/-- A chain that does not come back has no more steps than there are places to step from. -/
theorem le_of_acyclic (place : α → Nat) {bound : Nat} (h : Descends r a n)
    (hacyclic : ∀ b, ReflTransGen r a b → ¬ TransGen r b b)
    (hbound : ∀ b, (∃ c, r b c) → place b < bound)
    (hplace : ∀ b b', (∃ c, r b c) → (∃ c, r b' c) → place b = place b' → b = b') : n ≤ bound := by
  obtain ⟨path, rfl, hpath, hmem⟩ := h.exists_path
  exact length_le_of_pairwise hpath (fun b hb => hacyclic b (hmem b hb).1)
    (fun b hb => hbound b (hmem b hb).2)
    (fun b hb b' hb' => hplace b b' (hmem b hb).2 (hmem b' hb').2)

end Descends

namespace Context

/-! ### Nodes inside nodes -/

variable (ctx : Context)

/-- `w` is defined directly inside `v`. -/
def Holds (v w : Visit) : Prop :=
  ∃ inner, ctx.inside? v = some inner ∧ w ∈ inner

/-- Of `v` and what is defined inside it, nothing is defined inside itself. -/
def Acyclic (v : Visit) : Prop :=
  ∀ w, ReflTransGen ctx.Holds v w → ¬ TransGen ctx.Holds w w

/-- The walks of nodes, one after the other. -/
inductive Walked : List Visit → List Visit → Prop where
  | nil : Walked [] []
  | cons {v : Visit} {inner l vs ls : List Visit} : ctx.inside? v = some inner →
    Walked inner l → Walked vs ls → Walked (v :: vs) (v :: l ++ ls)

variable {ctx}

/-- Nothing is defined inside itself where a rank falls from every node to what it holds. -/
theorem acyclic_of_rank (rank : Visit → Nat) (h : ∀ v w, ctx.Holds v w → rank w < rank v)
    (v : Visit) : ctx.Acyclic v := by
  have hfalls : ∀ {a b : Visit}, TransGen ctx.Holds a b → rank b < rank a := by
    intro a b hab
    induction hab with
    | single hstep => exact h _ _ hstep
    | tail _ hstep ih => exact Nat.lt_trans (h _ _ hstep) ih
  exact fun w _ hcycle => Nat.lt_irrefl _ (hfalls hcycle)

/-! ### The nodes of a walk -/

theorem Walked.append {vs ws l l' : List Visit} (h : ctx.Walked vs l) (h' : ctx.Walked ws l') :
    ctx.Walked (vs ++ ws) (l ++ l') := by
  induction h with
  | nil => exact h'
  | @cons v inner l vs ls hinner hl _ _ ih =>
    rw [List.cons_append, List.append_assoc]
    exact .cons hinner hl ih

/-- Every node whose walk is listed is in its arena. -/
theorem Walked.exists_inside {vs l : List Visit} (h : ctx.Walked vs l) :
    ∀ v ∈ vs, ∃ inner, ctx.inside? v = some inner := by
  induction h with
  | nil => nofun
  | @cons v inner l vs ls hinner _ _ _ ih =>
    intro w hw
    rcases List.mem_cons.mp hw with rfl | hw
    · exact ⟨inner, hinner⟩
    · exact ih w hw

theorem walked_of_foldlM {fuel : Nat} (hvisit : ∀ {v : Visit} {seen seen' : List Visit},
      ctx.visitFrom true fuel seen v = .ok seen' → ∃ l, seen' = l.reverse ++ seen ∧ ctx.Walked [v] l) :
    ∀ {vs seen seen' : List Visit}, vs.foldlM (ctx.visitFrom true fuel) seen = .ok seen' →
      ∃ l, seen' = l.reverse ++ seen ∧ ctx.Walked vs l
  | [], seen, seen', h => by
    cases h
    exact ⟨[], rfl, .nil⟩
  | v :: vs, seen, seen', h => by
    rw [List.foldlM_cons] at h
    cases hv : ctx.visitFrom true fuel seen v with
    | error e =>
      rw [hv] at h
      cases h
    | ok seen₁ =>
      rw [hv] at h
      obtain ⟨l, rfl, hl⟩ := hvisit hv
      obtain ⟨ls, rfl, hls⟩ := walked_of_foldlM hvisit h
      exact ⟨l ++ ls, by rw [List.reverse_append, List.append_assoc], hl.append hls⟩

/-- A step of a walk with everything inside comments. -/
theorem visitFrom_succ (fuel : Nat) (seen : List Visit) (v : Visit) :
    ctx.visitFrom true (fuel + 1) seen v = match ctx.inside? v with
      | none => .error (.missing v)
      | some inner => inner.foldlM (ctx.visitFrom true fuel) (v :: seen) := by
  cases hinner : ctx.inside? v <;> cases v <;> simp [visitFrom, hinner]

theorem walked_of_visitFrom : ∀ {fuel : Nat} {v : Visit} {seen seen' : List Visit},
    ctx.visitFrom true fuel seen v = .ok seen' → ∃ l, seen' = l.reverse ++ seen ∧ ctx.Walked [v] l
  | 0, _, _, _, h => by cases h
  | fuel + 1, v, seen, seen', h => by
    rw [visitFrom_succ] at h
    split at h
    · cases h
    · next inner hinner =>
      obtain ⟨l, rfl, hl⟩ := walked_of_foldlM walked_of_visitFrom h
      refine ⟨v :: l ++ [], ?_, .cons hinner hl .nil⟩
      rw [List.append_nil, List.reverse_cons, List.append_assoc]
      rfl

theorem walked_of_walk {root : DeclId} {visits : List Visit} (h : ctx.walk root = .ok visits) :
    ctx.Walked [.decl root] visits := by
  cases hvisit : ctx.visitFrom true ctx.nestingBound [] (.decl root) with
  | error e =>
    rw [walk, hvisit] at h
    cases h
  | ok seen =>
    rw [walk, hvisit] at h
    obtain ⟨l, rfl, hl⟩ := walked_of_visitFrom hvisit
    cases h
    show ctx.Walked [.decl root] (l.reverse ++ []).reverse
    rw [List.append_nil, List.reverse_reverse]
    exact hl

/-- What has a walk is not endlessly nested. -/
theorem Walked.acc {vs l : List Visit} (h : ctx.Walked vs l) :
    ∀ v ∈ vs, Acc (fun w v => ctx.Holds v w) v := by
  induction h with
  | nil => nofun
  | @cons v inner l vs ls hinner _ _ ihl ihls =>
    intro u hu
    rcases List.mem_cons.mp hu with rfl | hu
    · refine Acc.intro u fun w hw => ?_
      obtain ⟨inner', hinner', hw⟩ := hw
      rw [hinner, Option.some.injEq] at hinner'
      rw [← hinner'] at hw
      exact ihl w hw
    · exact ihls u hu

/-- A walk that ends shows that there are no cycles. -/
theorem acyclic_of_walk {root : DeclId} {visits : List Visit} (h : ctx.walk root = .ok visits) :
    ctx.Acyclic (.decl root) := by
  intro w hw
  have hacc := (walked_of_walk h).acc (.decl root) List.mem_cons_self
  exact not_transGen_of_acc (acc_of_reflTransGen hacc hw)

/-! ### The length of a path -/

theorem exists_error_of_foldlM {α β ε : Type} {f : β → α → Except ε β} {e : ε} :
    ∀ {l : List α} {b : β}, l.foldlM f b = .error e → ∃ a ∈ l, ∃ b', f b' a = .error e
  | [], _, h => by cases h
  | a :: l, b, h => by
    rw [List.foldlM_cons] at h
    cases ha : f b a with
    | error e =>
      rw [ha] at h
      cases h
      exact ⟨a, List.mem_cons_self, b, ha⟩
    | ok b₁ =>
      rw [ha] at h
      obtain ⟨a', ha', herror⟩ := exists_error_of_foldlM h
      exact ⟨a', List.mem_cons_of_mem a ha', herror⟩

/-- A walk that runs out of fuel has come down a chain with a step for each unit of it. -/
theorem descends_of_cyclic {comments : Bool} : ∀ {fuel : Nat} {v : Visit} {seen : List Visit},
    ctx.visitFrom comments fuel seen v = .error .cyclic → Descends ctx.Holds v fuel
  | 0, v, _, _ => .zero v
  | fuel + 1, v, seen, h => by
    have hfold : ∀ {inner}, ctx.inside? v = some inner →
        inner.foldlM (ctx.visitFrom comments fuel) (v :: seen) = .error .cyclic →
        Descends ctx.Holds v (fuel + 1) := by
      intro inner hinner herror
      obtain ⟨w, hw, seen', hcyclic⟩ := exists_error_of_foldlM herror
      exact .step ⟨inner, hinner, hw⟩ (descends_of_cyclic hcyclic)
    unfold visitFrom at h
    split at h
    · cases h
    · next hinner =>
      split at h
      · exact hfold hinner h
      · cases h
    · next hinner => exact hfold hinner h

/-- The place of a node among those that can hold others, arena after arena. -/
def place (ctx : Context) : Visit → Nat
  | .decl id => id.toNat
  | .stmt id => ctx.decls.size + id.toNat
  | .comment id => ctx.decls.size + ctx.stmts.size + id.toNat
  | .type _ => 0

/-- A node in its arena that can hold others, as types cannot. -/
def CanHold (ctx : Context) (v : Visit) : Prop :=
  (ctx.inside? v).isSome ∧ v.family ≠ .type

theorem Holds.canHold {v w : Visit} (h : ctx.Holds v w) : ctx.CanHold v := by
  obtain ⟨inner, hinner, hw⟩ := h
  refine ⟨by rw [hinner]; rfl, ?_⟩
  cases v with
  | decl | stmt | comment => nofun
  | type id =>
    obtain ⟨t, -, rfl⟩ := Option.map_eq_some_iff.mp hinner
    cases hw

/-- A node that can hold others is in the arena of its family. -/
theorem index_lt_of_canHold {v : Visit} (h : ctx.CanHold v) : match v with
    | .decl id => id.toNat < ctx.decls.size
    | .stmt id => id.toNat < ctx.stmts.size
    | .comment id => id.toNat < ctx.comments.size
    | .type _ => False := by
  obtain ⟨hinside, hfamily⟩ := h
  cases v with
  | decl | stmt | comment =>
    rw [inside?, Option.isSome_map] at hinside
    obtain ⟨x, hx⟩ := Option.isSome_iff_exists.mp hinside
    exact (Array.getElem?_eq_some_iff.mp hx).1
  | type id => exact hfamily rfl

theorem place_lt {v : Visit} (h : ctx.CanHold v) : ctx.place v < ctx.nestingBound - 1 := by
  have hindex := index_lt_of_canHold h
  cases v <;> simp only [place, nestingBound] at hindex ⊢ <;> omega

theorem eq_of_place {v v' : Visit} (h : ctx.CanHold v) (h' : ctx.CanHold v')
    (hplace : ctx.place v = ctx.place v') : v = v' := by
  have hindex := index_lt_of_canHold h
  have hindex' := index_lt_of_canHold h'
  cases v <;> cases v' <;> simp only [place] at hindex hindex' hplace
  all_goals try omega
  all_goals
    next i j =>
      have hij : i.toNat = j.toNat := by omega
      exact congrArg _ (Id.eq_of_toNat hij)

/-- A rank that falls at every position of the arenas that can hold others. -/
theorem acyclic_of_ranks (rank : Visit → Nat)
    (hdecls : ∀ i < ctx.decls.size, ∀ w ∈ (ctx.inside? (.decl (.ofSize i))).getD [],
      rank w < rank (.decl (.ofSize i)))
    (hstmts : ∀ i < ctx.stmts.size, ∀ w ∈ (ctx.inside? (.stmt (.ofSize i))).getD [],
      rank w < rank (.stmt (.ofSize i)))
    (hcomments : ∀ i < ctx.comments.size, ∀ w ∈ (ctx.inside? (.comment (.ofSize i))).getD [],
      rank w < rank (.comment (.ofSize i))) (v : Visit) : ctx.Acyclic v := by
  refine acyclic_of_rank rank (fun v w h => ?_) v
  have hindex := index_lt_of_canHold h.canHold
  obtain ⟨inner, hinner, hw⟩ := h
  have hposition : ∀ {a : Arena} (id : Id a), Id.ofSize id.toNat = id := by
    intro a id
    rw [Id.ofSize, Id.toNat, UInt32.ofNat_toNat]
  cases v with
  | decl id =>
    have hrank := hdecls id.toNat hindex w
    rw [hposition, hinner] at hrank
    exact hrank hw
  | stmt id =>
    have hrank := hstmts id.toNat hindex w
    rw [hposition, hinner] at hrank
    exact hrank hw
  | comment id =>
    have hrank := hcomments id.toNat hindex w
    rw [hposition, hinner] at hrank
    exact hrank hw
  | type id => exact hindex.elim

theorem visitFrom_of_walk_error {root : DeclId} {e : WalkError} (h : ctx.walk root = .error e) :
    ctx.visitFrom true ctx.nestingBound [] (.decl root) = .error e := by
  cases hvisit : ctx.visitFrom true ctx.nestingBound [] (.decl root) with
  | error e' =>
    rw [walk, hvisit] at h
    cases h
    rfl
  | ok seen =>
    rw [walk, hvisit] at h
    cases h

/-- Where no node is defined inside itself, no chain has a step for each unit of the fuel. -/
theorem Acyclic.not_descends {v : Visit} (h : ctx.Acyclic v) :
    ¬ Descends ctx.Holds v ctx.nestingBound := by
  intro hchain
  have hle : ctx.nestingBound ≤ ctx.nestingBound - 1 := by
    refine hchain.le_of_acyclic ctx.place h ?_ ?_
    · rintro w ⟨u, hu⟩
      exact place_lt hu.canHold
    · rintro w w' ⟨u, hu⟩ ⟨u', hu'⟩
      exact eq_of_place hu.canHold hu'.canHold
  have hpos : 0 < ctx.nestingBound := Nat.succ_pos _
  omega

/-- A walk without cycles ends within its fuel. -/
theorem walk_ne_cyclic {root : DeclId} (h : ctx.Acyclic (.decl root)) :
    ctx.walk root ≠ .error .cyclic := by
  intro hwalk
  exact h.not_descends (descends_of_cyclic (visitFrom_of_walk_error hwalk))

end Context

end SyntaxExport
