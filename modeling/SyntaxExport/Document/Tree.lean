import SyntaxExport.Document.Scope

/-!
# Document trees and their calls

A document is a tree of objects, arrays, tuples and variants with leaves of some type: scalars in a
finished document, anything that still has to be resolved before. `Tree.calls` lists, in document
order, the calls that write a tree; the declared sizes are the sizes of the tree.
-/

namespace SyntaxExport

/-- A value without parts. -/
inductive Scalar where
  | string (s : String)
  | integer (i : Int)
  | unsigned (n : Nat)
  | boolean (b : Bool)
  /-- A variant without an argument. -/
  | simple (tag : String)
  deriving DecidableEq, Repr

/-- The containers that declare a size. -/
inductive Shape where
  /-- Named fields. -/
  | object
  /-- Elements of one kind. -/
  | array
  /-- A fixed list of elements. -/
  | tuple
  deriving DecidableEq, Repr

def Shape.scope : Shape → ScopeKind
  | .object => .object
  | .array => .array
  | .tuple => .tuple

/-- A document with leaves in `α`. -/
inductive Tree (α : Type) where
  | leaf (a : α)
  | object (fields : List (String × Tree α))
  | array (items : List (Tree α))
  | tuple (items : List (Tree α))
  | variant (tag : String) (argument : Tree α)
  deriving Repr

/-- One step of writing a document with leaves in `α`. -/
inductive Token (α : Type) where
  /-- Opens a container and declares its size. -/
  | container (shape : Shape) (arity : Nat)
  /-- Opens a variant, whose argument follows. -/
  | variant (tag : String)
  /-- Closes the innermost container or variant. -/
  | close
  /-- Names the next field. -/
  | tag (name : String)
  | leaf (a : α)
  deriving DecidableEq, Repr

/-- A call of a document writer. -/
abbrev Call := Token Scalar

/-- A finished document. -/
abbrev Value := Tree Scalar

namespace Tree

variable {α : Type}

mutual

/-- The tokens of a tree, in front of `rest`. -/
def tokensAppend : Tree α → List (Token α) → List (Token α)
  | .leaf a, rest => .leaf a :: rest
  | .object fs, rest => .container .object fs.length :: fieldTokens fs (.close :: rest)
  | .array ts, rest => .container .array ts.length :: itemTokens ts (.close :: rest)
  | .tuple ts, rest => .container .tuple ts.length :: itemTokens ts (.close :: rest)
  | .variant tag t, rest => .variant tag :: t.tokensAppend (.close :: rest)

/-- The tokens of the fields of an object, in front of `rest`. -/
def fieldTokens : List (String × Tree α) → List (Token α) → List (Token α)
  | [], rest => rest
  | (name, t) :: fs, rest => .tag name :: t.tokensAppend (fieldTokens fs rest)

/-- The tokens of the elements of an array or tuple, in front of `rest`. -/
def itemTokens : List (Tree α) → List (Token α) → List (Token α)
  | [], rest => rest
  | t :: ts, rest => t.tokensAppend (itemTokens ts rest)

end

/-- The tokens of a tree in document order. -/
def tokens (t : Tree α) : List (Token α) :=
  t.tokensAppend []

mutual

theorem tokensAppend_eq_append : ∀ (t : Tree α) (rest : List (Token α)),
    t.tokensAppend rest = t.tokens ++ rest
  | .leaf _, _ => rfl
  | .object fs, rest => by
    simp only [tokens, tokensAppend]
    rw [fieldTokens_eq_append fs (.close :: rest), fieldTokens_eq_append fs [.close]]
    simp
  | .array ts, rest => by
    simp only [tokens, tokensAppend]
    rw [itemTokens_eq_append ts (.close :: rest), itemTokens_eq_append ts [.close]]
    simp
  | .tuple ts, rest => by
    simp only [tokens, tokensAppend]
    rw [itemTokens_eq_append ts (.close :: rest), itemTokens_eq_append ts [.close]]
    simp
  | .variant tag t, rest => by
    simp only [tokens, tokensAppend]
    rw [tokensAppend_eq_append t (.close :: rest), tokensAppend_eq_append t [.close]]
    simp

theorem fieldTokens_eq_append : ∀ (fs : List (String × Tree α)) (rest : List (Token α)),
    fieldTokens fs rest = fieldTokens fs [] ++ rest
  | [], _ => rfl
  | (name, t) :: fs, rest => by
    simp only [fieldTokens]
    rw [fieldTokens_eq_append fs rest, tokensAppend_eq_append t (fieldTokens fs [] ++ rest),
      tokensAppend_eq_append t (fieldTokens fs [])]
    simp

theorem itemTokens_eq_append : ∀ (ts : List (Tree α)) (rest : List (Token α)),
    itemTokens ts rest = itemTokens ts [] ++ rest
  | [], _ => rfl
  | t :: ts, rest => by
    simp only [itemTokens]
    rw [itemTokens_eq_append ts rest, tokensAppend_eq_append t (itemTokens ts [] ++ rest),
      tokensAppend_eq_append t (itemTokens ts [])]
    simp

end

/-- Induction on trees, with the hypothesis for every part of a container. -/
@[elab_as_elim]
theorem parts_induction {motive : Tree α → Prop} (leaf : ∀ a, motive (.leaf a))
    (object : ∀ fs, (∀ field ∈ fs, motive field.2) → motive (.object fs))
    (array : ∀ ts, (∀ t ∈ ts, motive t) → motive (.array ts))
    (tuple : ∀ ts, (∀ t ∈ ts, motive t) → motive (.tuple ts))
    (variant : ∀ tag t, motive t → motive (.variant tag t)) (t : Tree α) : motive t :=
  @Tree.rec α motive (fun fs => ∀ field ∈ fs, motive field.2) (fun ts => ∀ t ∈ ts, motive t)
    (fun field => motive field.2) leaf object array tuple variant
    (List.forall_mem_nil _) (fun _ _ hfirst hrest => List.forall_mem_cons.mpr ⟨hfirst, hrest⟩)
    (List.forall_mem_nil _) (fun _ _ hfirst hrest => List.forall_mem_cons.mpr ⟨hfirst, hrest⟩)
    (fun _ _ ht => ht) t

end Tree

/-! ### Queries of finished documents -/

namespace Tree

variable {α : Type}

/-- The first field of an object with a given name. -/
def field? : Tree α → String → Option (Tree α)
  | .object fs, name => fs.lookup name
  | _, _ => none

/-- The names of the fields of an object, in order. -/
def fieldNames : Tree α → List String
  | .object fs => fs.map (·.1)
  | _ => []

/-- The elements of an array or tuple. -/
def elements : Tree α → List (Tree α)
  | .array ts | .tuple ts => ts
  | _ => []

/-- The argument of a variant. -/
def argument? : Tree α → Option (Tree α)
  | .variant _ t => some t
  | _ => none

/-- A step from a document to one of its parts. -/
inductive Part where
  | field (name : String)
  | element (index : Nat)
  | argument
  deriving DecidableEq, Repr

/-- The part of a document that a step leads to. -/
def part? (t : Tree α) : Part → Option (Tree α)
  | .field name => t.field? name
  | .element i => t.elements[i]?
  | .argument => t.argument?

/-- The part at the end of a path from the root. -/
def follow? (t : Tree α) (path : List Part) : Option (Tree α) :=
  path.foldlM part? t

end Tree

namespace Value

/-- The tag of a variant, with or without an argument. -/
def tag? : Value → Option String
  | .variant tag _ | .leaf (.simple tag) => some tag
  | _ => none

def string? : Value → Option String
  | .leaf (.string s) => some s
  | _ => none

/-- The number of an integer leaf that fits a signed word of 64 bits. -/
def integer? : Value → Option Int
  | .leaf (.integer i) => some i
  | .leaf (.unsigned n) => if n < 0x8000000000000000 then some n else none
  | _ => none

def boolean? : Value → Option Bool
  | .leaf (.boolean b) => some b
  | _ => none

end Value

end SyntaxExport
