import SyntaxExport.Error
import SyntaxExport.Kind.Family

/-!
# Sizes of kinds given by name
-/

namespace SyntaxExport

/-- The tuple size of the kind of a family with a given short name or tag. -/
def tupleSizeOf (family : Family) (name : String) : Except ExportError Nat :=
  match (NodeKind.lookup? name : Option family.Kind) with
  | none => .error (.unknownKind family name)
  | some k => .ok (NodeKind.tupleSize k)

/-- The shape of a list of nodes of several kinds. -/
structure ListShape where
  /-- The number of nodes. -/
  elements : Nat := 0
  /-- The number of fields of all nodes. -/
  fields : Nat := 0
  deriving DecidableEq, Repr

/-- The shape of a list of nodes with the given kinds. -/
def ListShape.ofKinds {κ : Type} [NodeKind κ] (kinds : List κ) : ListShape :=
  ⟨kinds.length, kinds.foldl (fun n k => n + NodeKind.tupleSize k) 0⟩

end SyntaxExport
