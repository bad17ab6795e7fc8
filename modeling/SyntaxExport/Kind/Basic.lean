/-!
# Kind hierarchies

A translation unit holds nodes of four families. Each family has one closed enumeration of kinds,
and every kind but the root of the family names one parent. A node is written level by level along
the chain from the root down to its kind, so the chain (`NodeKind.lineage`) fixes the layout of the
node.
-/

namespace SyntaxExport

/-- The four node families of a translation unit. -/
inductive Family where
  | decl | stmt | type | comment
  deriving DecidableEq, Repr, Inhabited

namespace Family

/-- Every family, in order. -/
def all : List Family :=
  [.decl, .stmt, .type, .comment]

/-- The name of a family in messages. -/
def name : Family → String
  | .decl => "decl"
  | .stmt => "stmt"
  | .type => "type"
  | .comment => "comment"

/-- What the tags of a family add to the names of its kinds. -/
def tagSuffix : Family → String
  | .decl => "Decl"
  | .stmt => ""
  | .type => "Type"
  | .comment => ""

end Family

/-- A closed enumeration of kinds with one parent link per kind. Parents precede their children in
the table, so every chain of parents ends. -/
class NodeKind (κ : Type) extends BEq κ, LawfulBEq κ where
  /-- The family of the enumeration. -/
  family : Family
  /-- Every kind, in table order. -/
  all : List κ
  /-- The short name of a kind. -/
  name : κ → String
  /-- The kind one level up; the root of the family has none. -/
  parent : κ → Option κ
  /-- Whether a kind is only a level of the hierarchy. -/
  isAbstract : κ → Bool
  /-- The number of fields a level adds to the tuple of the level above it. -/
  ownFieldCount : κ → Nat
  /-- The position of a kind in the table. -/
  rank : κ → Nat
  /-- A parent precedes its children. -/
  rank_parent_lt (k : κ) : (parent k).all (fun p => rank p < rank k) = true

namespace NodeKind

variable {κ : Type} [NodeKind κ]

/-- The tag a node of kind `k` is written with. -/
def tag (k : κ) : String :=
  name k ++ (@family κ _).tagSuffix

/-- At most `n` levels of the chain that ends with `k`, the most general first. -/
def climb : Nat → κ → List κ
  | 0, _ => []
  | n + 1, k => (match parent k with | none => [] | some p => climb n p) ++ [k]

/-- The chain from the root of the family down to `k`, both included. -/
def lineage (k : κ) : List κ :=
  climb (rank k + 1) k

/-- Whether `ancestor` is `k` or lies above it. -/
def inherits (k ancestor : κ) : Bool :=
  decide (ancestor ∈ lineage k)

/-- The number of levels above `k`. -/
def depth (k : κ) : Nat :=
  (lineage k).length - 1

/-- The kind with a given short name. -/
def fromName? (s : String) : Option κ :=
  (all : List κ).find? (name · == s)

/-- The kind with a given tag. -/
def fromTag? (s : String) : Option κ :=
  (all : List κ).find? (tag · == s)

/-- The kind with a given short name, or else with a given tag. -/
def lookup? (s : String) : Option κ :=
  fromName? s <|> fromTag? s

/-- The size of the tuple a node of kind `k` is written as: the fields of its whole chain. -/
def tupleSize (k : κ) : Nat :=
  (lineage k).foldl (fun n level => n + ownFieldCount level) 0

/-! ### The chain, level by level -/

theorem rank_lt_of_parent {k p : κ} (h : parent k = some p) : rank p < rank k := by
  have := rank_parent_lt k
  simpa [h] using this

/-- Fuel above the rank is not used. -/
theorem climb_eq_of_rank_lt {n m : Nat} {k : κ} (hn : rank k < n) (hm : rank k < m) :
    climb n k = climb m k := by
  induction n generalizing m k with
  | zero => omega
  | succ n ih =>
    obtain _ | m := m
    · omega
    · simp only [climb]
      split
      · rfl
      · next p hp =>
        have hlt := rank_lt_of_parent hp
        rw [ih (by omega : rank p < n) (by omega : rank p < m)]

theorem lineage_of_root {k : κ} (h : parent k = none) : lineage k = [k] := by
  simp [lineage, climb, h]

theorem lineage_of_parent {k p : κ} (h : parent k = some p) : lineage k = lineage p ++ [k] := by
  rw [lineage, climb, h]
  exact congrArg (· ++ [k]) (climb_eq_of_rank_lt (rank_lt_of_parent h) (Nat.lt_succ_self _))

/-- A level adds its own fields to the tuple of the level above it. -/
theorem tupleSize_of_parent {k p : κ} (h : parent k = some p) :
    tupleSize k = tupleSize p + ownFieldCount k := by
  simp [tupleSize, lineage_of_parent h]

end NodeKind

end SyntaxExport
