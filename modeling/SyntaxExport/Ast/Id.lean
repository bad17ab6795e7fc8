import SyntaxExport.Kind.Basic

/-!
# Arena indices

Every node lives in an arena of its context and is named by its position there. Links between nodes,
cyclic ones included, are such positions.
-/

namespace SyntaxExport

/-- The arenas of a context. -/
inductive Arena where
  | decl | stmt | type | comment | attr | temporary
  deriving DecidableEq, Repr, Inhabited

/-- The name of the indices of an arena, as messages show it. -/
def Arena.idName : Arena → String
  | .decl => "DeclId"
  | .stmt => "StmtId"
  | .type => "TypeId"
  | .comment => "CommentId"
  | .attr => "AttrId"
  | .temporary => "TemporaryId"

/-- A position in the arena `a`. -/
structure Id (a : Arena) where
  index : UInt32
  deriving DecidableEq, Repr, Hashable

namespace Id

variable {a : Arena}

/-- The index that no node has. -/
def invalid : Id a := ⟨4294967295⟩

instance : Inhabited (Id a) := ⟨invalid⟩

/-- The position as a number. -/
def toNat (id : Id a) : Nat :=
  id.index.toNat

/-- The index of the entry appended to an arena that holds `size` entries. -/
def ofSize (size : Nat) : Id a :=
  ⟨UInt32.ofNat size⟩

theorem toNat_ofSize {n : Nat} (h : n < UInt32.size) : (ofSize n : Id a).toNat = n :=
  UInt32.toNat_ofNat_of_lt h

theorem eq_of_toNat {id id' : Id a} (h : id.toNat = id'.toNat) : id = id' := by
  cases id
  cases id'
  exact congrArg Id.mk (UInt32.toNat_inj.mp h)

/-- The text of an index in messages. -/
def describe (id : Id a) : String :=
  if id = invalid then a.idName ++ "::INVALID" else a.idName ++ "(" ++ toString id.toNat ++ ")"

end Id

abbrev DeclId := Id .decl
abbrev StmtId := Id .stmt
abbrev TypeId := Id .type
abbrev CommentId := Id .comment
abbrev AttrId := Id .attr
abbrev TemporaryId := Id .temporary

/-- A position in the file table. -/
structure FileId where
  index : UInt32
  deriving DecidableEq, Repr, Hashable, Inhabited

namespace FileId

/-- The position as a number. -/
def toNat (id : FileId) : Nat :=
  id.index.toNat

/-- The index of the name appended to a table that holds `size` names. -/
def ofSize (size : Nat) : FileId :=
  ⟨UInt32.ofNat size⟩

end FileId

end SyntaxExport
