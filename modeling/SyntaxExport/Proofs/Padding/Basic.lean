import Mathlib.Algebra.GroupWithZero.Nat
import Mathlib.Data.List.Forall2
import SyntaxExport.Layout.Comment
import SyntaxExport.Layout.Decl
import SyntaxExport.Layout.Stmt

/-!
# Contexts with new nodes for absent ones

A slot may hold no node: a child of a statement or of a comment, and the declaration that a block or a
lambda owns. `Context.PaddedInto` says that another context has the same nodes, with a new node in every
such slot, whose content is that of the sentinel of its family. Where a new node stands is left open,
and so is whether two slots share one.

`Context.pad` is the context in which every slot gets a node of its own, behind the nodes of its arena.
-/

namespace SyntaxExport

/-- A slot that holds something keeps it, and an absent one gets something new. -/
inductive Pads {α : Type} (new : α → Prop) : Option α → Option α → Prop where
  | held (a : α) : Pads new (some a) (some a)
  | absent {a : α} (h : new a) : Pads new none (some a)

theorem Pads.mono {α : Type} {new new' : α → Prop} (h : ∀ a, new a → new' a) {o o' : Option α}
    (ho : Pads new o o') : Pads new' o o' := by
  cases ho with
  | held a => exact .held a
  | absent ha => exact .absent (h _ ha)

/-! ### Slots of nodes -/

namespace Stmt

/-- The declaration that a block or a lambda owns. -/
def owned (s : Stmt) : List (Option DeclId) :=
  if s.kind = .blockExpr ∨ s.kind = .lambdaExpr then
    match s.payload with
    | .ownedDecl d => [d]
    | _ => []
  else []

/-- The statement with another owned declaration. -/
def withOwned (s : Stmt) : List (Option DeclId) → Stmt
  | [d] => { s with payload := .ownedDecl d }
  | _ => s

end Stmt

namespace Context

variable (ctx ctx' : Context)

/-- A declaration of `ctx'` alone, with the content of the sentinel. -/
def NewDecl (id : DeclId) : Prop :=
  ctx.decl? id = none ∧ ctx'.decl? id = some Layout.sentinelDecl

/-- A statement of `ctx'` alone, with the content of the sentinel. -/
def NewStmt (id : StmtId) : Prop :=
  ctx.stmt? id = none ∧ ctx'.stmt? id = some Layout.sentinelStmt

/-- A comment of `ctx'` alone, with the content of the sentinel. -/
def NewComment (id : CommentId) : Prop :=
  ctx.comment? id = none ∧ ctx'.comment? id = some Layout.sentinelComment

end Context

/-- `s'` is `s` with new nodes in the absent slots. -/
def Stmt.PaddedInto (ctx ctx' : Context) (s s' : Stmt) : Prop :=
  ∃ children owned, List.Forall₂ (Pads (ctx.NewStmt ctx')) s.children children
    ∧ List.Forall₂ (Pads (ctx.NewDecl ctx')) s.owned owned
    ∧ s' = { s with children := children }.withOwned owned

/-- `c'` is `c` with new comments in the absent slots. -/
def Comment.PaddedInto (ctx ctx' : Context) (c c' : Comment) : Prop :=
  ∃ children, List.Forall₂ (Pads (ctx.NewComment ctx')) c.children children
    ∧ c' = { c with children := children }

/-- `ctx'` has the nodes and files of `ctx`, with a new node in every absent slot. -/
structure Context.PaddedInto (ctx ctx' : Context) : Prop where
  files : ctx'.files = ctx.files
  types : ctx'.types = ctx.types
  attrs : ctx'.attrs = ctx.attrs
  decl : ∀ {id : DeclId} {d : Decl}, ctx.decl? id = some d → ctx'.decl? id = some d
  stmt : ∀ {id : StmtId} {s : Stmt}, ctx.stmt? id = some s →
    ∃ s', ctx'.stmt? id = some s' ∧ s.PaddedInto ctx ctx' s'
  comment : ∀ {id : CommentId} {c : Comment}, ctx.comment? id = some c →
    ∃ c', ctx'.comment? id = some c' ∧ c.PaddedInto ctx ctx' c'

/-! ### New nodes behind the others -/

/-- The slots of a node that may be absent. -/
structure SlotLens (ν : Type) (a : Arena) where
  get : ν → List (Option (Id a))
  put : ν → List (Option (Id a)) → ν

namespace SlotLens

def stmtChildren : SlotLens Stmt .stmt :=
  ⟨Stmt.children, fun s children => { s with children := children }⟩

def stmtOwned : SlotLens Stmt .decl :=
  ⟨Stmt.owned, Stmt.withOwned⟩

def commentChildren : SlotLens Comment .comment :=
  ⟨Comment.children, fun c children => { c with children := children }⟩

section Fill

variable {a : Arena}

/-- The number of absent slots. -/
def absent (os : List (Option (Id a))) : Nat :=
  os.countP Option.isNone

/-- Puts the positions from `n` on into the absent slots. -/
def fill : Nat → List (Option (Id a)) → List (Option (Id a))
  | _, [] => []
  | n, none :: os => some (.ofSize n) :: fill (n + 1) os
  | n, some id :: os => some id :: fill n os

/-- The positions in the slots that were absent are those from `n` on, as many as there were. -/
theorem pads_fill : ∀ (n : Nat) (os : List (Option (Id a))),
    List.Forall₂ (Pads fun id => ∃ k, n ≤ k ∧ k < n + absent os ∧ id = .ofSize k) os (fill n os)
  | _, [] => .nil
  | n, none :: os => by
    have hcount : absent (none :: os) = absent os + 1 := by simp [absent]
    refine .cons (.absent ⟨n, Nat.le_refl n, by omega, rfl⟩) ?_
    refine (pads_fill (n + 1) os).imp fun o o' ho => ho.mono ?_
    rintro id ⟨k, hle, hlt, rfl⟩
    exact ⟨k, by omega, by omega, rfl⟩
  | n, some id :: os => by
    have hcount : absent (some id :: os) = absent os := by simp [absent]
    refine .cons (.held id) ?_
    rw [hcount]
    exact pads_fill n os

end Fill

variable {ν : Type} {a : Arena} (l : SlotLens ν a)

/-- Puts the positions from `n` on into the absent slots of nodes, one node after the other. -/
def fillAll : Nat → List ν → List ν
  | _, [] => []
  | n, x :: xs => l.put x (fill n (l.get x)) :: fillAll (n + absent (l.get x)) xs

/-- The number of absent slots of nodes. -/
def absentIn (xs : List ν) : Nat :=
  (xs.map fun x => absent (l.get x)).sum

theorem length_fillAll : ∀ (n : Nat) (xs : List ν), (l.fillAll n xs).length = xs.length
  | _, [] => rfl
  | _, _ :: xs => congrArg Nat.succ (length_fillAll _ xs)

/-- Every node gets positions of its own, and all of them are among those from `n` on. -/
theorem exists_getElem?_fillAll : ∀ {xs : List ν} {n i : Nat} {x : ν}, xs[i]? = some x →
    ∃ m, n ≤ m ∧ m + absent (l.get x) ≤ n + l.absentIn xs
      ∧ (l.fillAll n xs)[i]? = some (l.put x (fill m (l.get x)))
  | y :: xs, n, 0, x, h => by
    obtain rfl : y = x := by simpa using h
    have hcount : l.absentIn (y :: xs) = absent (l.get y) + l.absentIn xs := by simp [absentIn]
    exact ⟨n, Nat.le_refl n, by omega, rfl⟩
  | y :: xs, n, i + 1, x, h => by
    have hx : xs[i]? = some x := by simpa using h
    have hcount : l.absentIn (y :: xs) = absent (l.get y) + l.absentIn xs := by simp [absentIn]
    obtain ⟨m, hle, hm, hfill⟩ := exists_getElem?_fillAll (n := n + absent (l.get y)) hx
    exact ⟨m, by omega, by omega, by simpa [fillAll] using hfill⟩

end SlotLens

open SlotLens (stmtChildren stmtOwned commentChildren)

namespace Context

variable (ctx : Context)

/-- The context with a node of its own in every absent slot. -/
def pad : Context :=
  { ctx with
    decls := ctx.decls ++ Array.replicate (stmtOwned.absentIn ctx.stmts.toList) Layout.sentinelDecl
    stmts := (stmtOwned.fillAll ctx.decls.size
        (stmtChildren.fillAll ctx.stmts.size ctx.stmts.toList)).toArray
      ++ Array.replicate (stmtChildren.absentIn ctx.stmts.toList) Layout.sentinelStmt
    comments := (commentChildren.fillAll ctx.comments.size ctx.comments.toList).toArray
      ++ Array.replicate (commentChildren.absentIn ctx.comments.toList) Layout.sentinelComment }

/-- There are positions for all new nodes. -/
def HasRoom : Prop :=
  ctx.decls.size + stmtOwned.absentIn ctx.stmts.toList ≤ UInt32.size ∧
  ctx.stmts.size + stmtChildren.absentIn ctx.stmts.toList ≤ UInt32.size ∧
  ctx.comments.size + commentChildren.absentIn ctx.comments.toList ≤ UInt32.size

instance : Decidable ctx.HasRoom :=
  inferInstanceAs (Decidable (_ ∧ _ ∧ _))

variable {ctx}

/-- A position behind the nodes of an arena has one of the new nodes. -/
theorem getElem?_append_replicate {α : Type} {xs : Array α} {x : α} {n k : Nat} (hle : xs.size ≤ k)
    (hlt : k < xs.size + n) : (xs ++ Array.replicate n x)[k]? = some x := by
  rw [Array.getElem?_append_right hle, Array.getElem?_replicate, if_pos (by omega)]

theorem absentIn_owned_children (n : Nat) : ∀ ss : List Stmt,
    stmtOwned.absentIn (stmtChildren.fillAll n ss) = stmtOwned.absentIn ss := by
  intro ss
  induction ss generalizing n with
  | nil => rfl
  | cons s ss ih =>
    have hrest := ih (n + SlotLens.absent (stmtChildren.get s))
    simp only [SlotLens.absentIn, SlotLens.fillAll, List.map_cons, List.sum_cons] at hrest ⊢
    rw [hrest]
    rfl

theorem newDecl_pad (hroom : ctx.HasRoom) {k : Nat} (hle : ctx.decls.size ≤ k)
    (hlt : k < ctx.decls.size + stmtOwned.absentIn ctx.stmts.toList) :
    ctx.NewDecl ctx.pad (.ofSize k) := by
  have hk : (Id.ofSize k : DeclId).toNat = k := Id.toNat_ofSize (Nat.lt_of_lt_of_le hlt hroom.1)
  rw [NewDecl, decl?, decl?, hk]
  exact ⟨Array.getElem?_eq_none hle, getElem?_append_replicate hle hlt⟩

theorem newStmt_pad (hroom : ctx.HasRoom) {k : Nat} (hle : ctx.stmts.size ≤ k)
    (hlt : k < ctx.stmts.size + stmtChildren.absentIn ctx.stmts.toList) :
    ctx.NewStmt ctx.pad (.ofSize k) := by
  have hk : (Id.ofSize k : StmtId).toNat = k := Id.toNat_ofSize (Nat.lt_of_lt_of_le hlt hroom.2.1)
  have hsize : (stmtOwned.fillAll ctx.decls.size
      (stmtChildren.fillAll ctx.stmts.size ctx.stmts.toList)).toArray.size = ctx.stmts.size := by
    rw [List.size_toArray, SlotLens.length_fillAll, SlotLens.length_fillAll, Array.length_toList]
  rw [NewStmt, stmt?, stmt?, hk]
  refine ⟨Array.getElem?_eq_none hle, getElem?_append_replicate ?_ ?_⟩
  · rwa [hsize]
  · rwa [hsize]

theorem newComment_pad (hroom : ctx.HasRoom) {k : Nat} (hle : ctx.comments.size ≤ k)
    (hlt : k < ctx.comments.size + commentChildren.absentIn ctx.comments.toList) :
    ctx.NewComment ctx.pad (.ofSize k) := by
  have hk : (Id.ofSize k : CommentId).toNat = k := Id.toNat_ofSize (Nat.lt_of_lt_of_le hlt hroom.2.2)
  have hsize : (commentChildren.fillAll ctx.comments.size ctx.comments.toList).toArray.size
      = ctx.comments.size := by
    rw [List.size_toArray, SlotLens.length_fillAll, Array.length_toList]
  rw [NewComment, comment?, comment?, hk]
  refine ⟨Array.getElem?_eq_none hle, getElem?_append_replicate ?_ ?_⟩
  · rwa [hsize]
  · rwa [hsize]

/-- As long as there are positions, every absent slot can get a node of its own. -/
theorem paddedInto_pad (hroom : ctx.HasRoom) : ctx.PaddedInto ctx.pad where
  files := rfl
  types := rfl
  attrs := rfl
  decl {id d} hd := by
    have hlt : id.toNat < ctx.decls.size := (Array.getElem?_eq_some_iff.mp hd).1
    rw [decl?, pad, Array.getElem?_append_left hlt]
    exact hd
  stmt {id s} hs := by
    have hs' : ctx.stmts.toList[id.toNat]? = some s := by rwa [Array.getElem?_toList]
    obtain ⟨m, hm, hmle, hchildren⟩ := stmtChildren.exists_getElem?_fillAll (n := ctx.stmts.size) hs'
    obtain ⟨k, hk, hkle, howned⟩ := stmtOwned.exists_getElem?_fillAll (n := ctx.decls.size) hchildren
    rw [absentIn_owned_children] at hkle
    have hlt : id.toNat < (stmtOwned.fillAll ctx.decls.size
        (stmtChildren.fillAll ctx.stmts.size ctx.stmts.toList)).toArray.size := by
      rw [List.size_toArray]
      exact (List.getElem?_eq_some_iff.mp howned).1
    refine ⟨_, ?_, SlotLens.fill m s.children, SlotLens.fill k s.owned, ?_, ?_, rfl⟩
    · rw [stmt?, pad, Array.getElem?_append_left hlt, List.getElem?_toArray]
      exact howned
    · refine (SlotLens.pads_fill m s.children).imp fun o o' ho => ho.mono ?_
      rintro id ⟨j, hle, hj, rfl⟩
      exact newStmt_pad hroom (by omega) (Nat.lt_of_lt_of_le hj hmle)
    · refine (SlotLens.pads_fill k s.owned).imp fun o o' ho => ho.mono ?_
      rintro id ⟨j, hle, hj, rfl⟩
      exact newDecl_pad hroom (by omega) (Nat.lt_of_lt_of_le hj hkle)
  comment {id c} hc := by
    have hc' : ctx.comments.toList[id.toNat]? = some c := by rwa [Array.getElem?_toList]
    obtain ⟨m, hm, hmle, hchildren⟩ :=
      commentChildren.exists_getElem?_fillAll (n := ctx.comments.size) hc'
    have hlt : id.toNat
        < (commentChildren.fillAll ctx.comments.size ctx.comments.toList).toArray.size := by
      rw [List.size_toArray]
      exact (List.getElem?_eq_some_iff.mp hchildren).1
    refine ⟨_, ?_, SlotLens.fill m c.children, ?_, rfl⟩
    · rw [comment?, pad, Array.getElem?_append_left hlt, List.getElem?_toArray]
      exact hchildren
    · refine (SlotLens.pads_fill m c.children).imp fun o o' ho => ho.mono ?_
      rintro id ⟨j, hle, hj, rfl⟩
      exact newComment_pad hroom (by omega) (Nat.lt_of_lt_of_le hj hmle)

end Context

end SyntaxExport
