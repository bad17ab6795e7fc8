import SyntaxExport.Layout.Basic
import SyntaxExport.Proofs.Document.Bind

/-!
# Outlines

The outline of a document lists, in document order, what a reader has to see to know its nodes and
their locations: the tuples of nodes, the objects that begin with a pointer, and the fields with
locations. It is read off the names of the fields alone, so a layout has an outline as well, in which
the places still to be filled stand too.
-/

namespace SyntaxExport

/-- A place of a document with leaves in `α`. -/
inductive Mark (α : Type) where
  /-- A tuple that begins with an object that begins with a pointer. -/
  | node (pointer : α)
  /-- An object that begins with a pointer. -/
  | head (pointer : α)
  /-- A field with locations, and the pointer of the innermost node or object around it. -/
  | locations (owner : Option α) (field : String) (parts : List (Tree α))
  /-- A leaf to be filled. -/
  | slot (a : α)

/-- The fields that hold a location, or the locations of the ends of a range. -/
def locationFields : List String :=
  ["source_range", "using_location", "namespace_key_location", "namespace_loc", "target_name_loc"]

/-- Leaves that an outline can be read from. -/
class Legible (α : Type) where
  /-- Whether a leaf is the text of a pointer. -/
  isPointer : α → Bool
  /-- Whether a leaf stands for more than a text or a number. -/
  isSlot : α → Bool

instance : Legible Scalar where
  isPointer a := a matches .string _
  isSlot _ := false

instance : Legible Item where
  isPointer a := a matches .identity _ | .scalar (.string _)
  isSlot a := a matches .define _ | .location _

namespace Tree

variable {α : Type} [Legible α]

/-- The pointer that the fields of an object begin with. -/
def leading? : List (String × Tree α) → Option α
  | (name, .leaf a) :: _ => if name = "pointer" ∧ Legible.isPointer a then some a else none
  | _ => none

/-- The pointer of a node whose tuple has these elements. -/
def pointer? : List (Tree α) → Option α
  | .object fs :: _ => leading? fs
  | _ => none

/-- The parts of a field with locations. -/
def parts : Tree α → List (Tree α)
  | .tuple ts => ts
  | t => [t]

mutual

/-- The outline of a document under a pointer. -/
def outline (owner : Option α) : Tree α → List (Mark α)
  | .leaf a => if Legible.isSlot a then [.slot a] else []
  | .object fs =>
    (leading? fs).toList.map .head ++ outlineFields ((leading? fs).or owner) fs
  | .array ts => outlineItems owner ts
  | .tuple ts => (pointer? ts).toList.map .node ++ outlineItems ((pointer? ts).or owner) ts
  | .variant _ t => t.outline owner

/-- The outline of the fields of an object under a pointer. -/
def outlineFields (owner : Option α) : List (String × Tree α) → List (Mark α)
  | [] => []
  | (name, t) :: fs =>
    (if name ∈ locationFields then [.locations owner name t.parts] else t.outline owner)
      ++ outlineFields owner fs

/-- The outline of the elements of an array or tuple under a pointer. -/
def outlineItems (owner : Option α) : List (Tree α) → List (Mark α)
  | [] => []
  | t :: ts => t.outline owner ++ outlineItems owner ts

end

/-- A fault, or a variant around the tuple of a node. -/
inductive IsHeaded : Tree Item → Prop where
  | fault (e : ExportError) : IsHeaded (.leaf (.fault e))
  | node (tag : String) (n : NodeRef) (fs : List (String × Tree Item)) (ts : List (Tree Item)) :
    IsHeaded (.variant tag (.tuple (.object (("pointer", .leaf (.identity n)) :: fs) :: ts)))

namespace IsHeaded

variable {t : Tree Item}

/-- A node does not care for the pointer around it. -/
theorem outline_eq (h : t.IsHeaded) (owner : Option Item) : t.outline owner = t.outline none := by
  cases h <;> rfl

theorem leading?_cons (h : t.IsHeaded) (name : String) (fs : List (String × Tree Item)) :
    leading? ((name, t) :: fs) = none := by
  cases h with
  | fault e => exact if_neg (by simp [Legible.isPointer])
  | node => rfl

theorem pointer?_cons (h : t.IsHeaded) (ts : List (Tree Item)) : pointer? (t :: ts) = none := by
  cases h <;> rfl

theorem parts_eq (h : t.IsHeaded) : t.parts = [t] := by
  cases h <;> rfl

end IsHeaded

end Tree

/-! ### Outlines of expanded trees -/

/-- What a leaf stands for, where `define` gives what is defined in a slot. -/
def Item.expand (define : Site → Tree Item) : Item → Tree Item
  | .define s => define s
  | a => .leaf a

/-- What stands in the outline for a mark, where `define` gives what is defined in a slot. -/
def Mark.expand (define : Site → Tree Item) : Mark Item → List (Mark Item)
  | .slot (.define s) => (define s).outline none
  | .locations owner field parts => [.locations owner field (Tree.bindItems parts (Item.expand define))]
  | m => [m]

namespace Tree

variable {define : Site → Tree Item}

theorem leading?_bindFields (h : ∀ s, (define s).IsHeaded) : ∀ fs : List (String × Tree Item),
    leading? (bindFields fs (Item.expand define)) = leading? fs
  | [] => rfl
  | (name, .leaf (.define s)) :: fs =>
    ((h s).leading?_cons name _).trans (if_neg (by simp [Legible.isPointer])).symm
  | (_, .leaf (.scalar _)) :: _ => rfl
  | (_, .leaf (.identity _)) :: _ => rfl
  | (_, .leaf (.location _)) :: _ => rfl
  | (_, .leaf (.fault _)) :: _ => rfl
  | (_, .object _) :: _ => rfl
  | (_, .array _) :: _ => rfl
  | (_, .tuple _) :: _ => rfl
  | (_, .variant _ _) :: _ => rfl

theorem pointer?_bindItems (h : ∀ s, (define s).IsHeaded) : ∀ ts : List (Tree Item),
    pointer? (bindItems ts (Item.expand define)) = pointer? ts
  | [] => rfl
  | .leaf (.define s) :: _ => (h s).pointer?_cons _
  | .leaf (.scalar _) :: _ => rfl
  | .leaf (.identity _) :: _ => rfl
  | .leaf (.location _) :: _ => rfl
  | .leaf (.fault _) :: _ => rfl
  | .object fs :: _ => leading?_bindFields h fs
  | .array _ :: _ => rfl
  | .tuple _ :: _ => rfl
  | .variant _ _ :: _ => rfl

theorem parts_bind (h : ∀ s, (define s).IsHeaded) : ∀ t : Tree Item,
    (t.bind (Item.expand define)).parts = bindItems t.parts (Item.expand define)
  | .leaf (.define s) => (h s).parts_eq
  | .leaf (.scalar _) => rfl
  | .leaf (.identity _) => rfl
  | .leaf (.location _) => rfl
  | .leaf (.fault _) => rfl
  | .object _ => rfl
  | .array _ => rfl
  | .tuple _ => rfl
  | .variant _ _ => rfl

mutual

/-- The outline of an expanded tree has the outlines of the defined nodes in its slots. -/
theorem outline_bind (h : ∀ s, (define s).IsHeaded) : ∀ (t : Tree Item) (owner : Option Item),
    (t.bind (Item.expand define)).outline owner = (t.outline owner).flatMap (Mark.expand define)
  | .leaf (.define s), owner => by
    change (define s).outline owner = (define s).outline none ++ []
    rw [(h s).outline_eq, List.append_nil]
  | .leaf (.scalar _), _ => rfl
  | .leaf (.identity _), _ => rfl
  | .leaf (.location _), _ => rfl
  | .leaf (.fault _), _ => rfl
  | .object fs, owner => by
    rw [bind, outline, outline, leading?_bindFields h, outlineFields_bind h fs, List.flatMap_append]
    cases leading? fs <;> rfl
  | .array ts, owner => by
    rw [bind, outline, outline, outlineItems_bind h ts]
  | .tuple ts, owner => by
    rw [bind, outline, outline, pointer?_bindItems h, outlineItems_bind h ts, List.flatMap_append]
    cases pointer? ts <;> rfl
  | .variant tag t, owner => by
    rw [bind, outline, outline, outline_bind h t]

theorem outlineFields_bind (h : ∀ s, (define s).IsHeaded) :
    ∀ (fs : List (String × Tree Item)) (owner : Option Item),
      outlineFields owner (bindFields fs (Item.expand define))
        = (outlineFields owner fs).flatMap (Mark.expand define)
  | [], _ => rfl
  | (name, t) :: fs, owner => by
    rw [bindFields, outlineFields, outlineFields, List.flatMap_append, outlineFields_bind h fs]
    split
    · rw [parts_bind h]
      rfl
    · rw [outline_bind h t]

theorem outlineItems_bind (h : ∀ s, (define s).IsHeaded) :
    ∀ (ts : List (Tree Item)) (owner : Option Item),
      outlineItems owner (bindItems ts (Item.expand define))
        = (outlineItems owner ts).flatMap (Mark.expand define)
  | [], _ => rfl
  | t :: ts, owner => by
    rw [bindItems, outlineItems, outlineItems, List.flatMap_append, outlineItems_bind h ts,
      outline_bind h t]

end

end Tree

end SyntaxExport
