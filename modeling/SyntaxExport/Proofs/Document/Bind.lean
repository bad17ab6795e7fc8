import SyntaxExport.Document.Tree

/-!
# Trees in the place of leaves
-/

namespace SyntaxExport.Tree

variable {α β : Type}

mutual

/-- Puts a tree in the place of every leaf. -/
def bind : Tree α → (α → Tree β) → Tree β
  | .leaf a, f => f a
  | .object fs, f => .object (bindFields fs f)
  | .array ts, f => .array (bindItems ts f)
  | .tuple ts, f => .tuple (bindItems ts f)
  | .variant tag t, f => .variant tag (t.bind f)

/-- Puts a tree in the place of every leaf of the fields of an object. -/
def bindFields : List (String × Tree α) → (α → Tree β) → List (String × Tree β)
  | [], _ => []
  | (name, t) :: fs, f => (name, t.bind f) :: bindFields fs f

/-- Puts a tree in the place of every leaf of the elements of an array or tuple. -/
def bindItems : List (Tree α) → (α → Tree β) → List (Tree β)
  | [], _ => []
  | t :: ts, f => t.bind f :: bindItems ts f

end

@[simp] theorem length_bindFields (fs : List (String × Tree α)) (f : α → Tree β) :
    (bindFields fs f).length = fs.length := by
  induction fs with
  | nil => rfl
  | cons x fs ih => simp [bindFields, ih]

@[simp] theorem length_bindItems (ts : List (Tree α)) (f : α → Tree β) :
    (bindItems ts f).length = ts.length := by
  induction ts with
  | nil => rfl
  | cons t ts ih => simp [bindItems, ih]

/-! ### Tokens -/

/-- The tokens that stand for a token once every leaf is a tree. -/
def expandToken (f : α → Tree β) : Token α → List (Token β)
  | .container shape arity => [.container shape arity]
  | .variant tag => [.variant tag]
  | .close => [.close]
  | .tag name => [.tag name]
  | .leaf a => (f a).tokens

mutual

theorem tokensAppend_bind (f : α → Tree β) : ∀ (t : Tree α) (rest : List (Token α)),
    (t.bind f).tokensAppend (rest.flatMap (expandToken f))
      = (t.tokensAppend rest).flatMap (expandToken f)
  | .leaf a, rest => by
    rw [bind, tokensAppend_eq_append]
    rfl
  | .object fs, rest => by
    simp only [bind, tokensAppend, length_bindFields, List.flatMap_cons]
    rw [← fieldTokens_bind f fs (.close :: rest)]
    rfl
  | .array ts, rest => by
    simp only [bind, tokensAppend, length_bindItems, List.flatMap_cons]
    rw [← itemTokens_bind f ts (.close :: rest)]
    rfl
  | .tuple ts, rest => by
    simp only [bind, tokensAppend, length_bindItems, List.flatMap_cons]
    rw [← itemTokens_bind f ts (.close :: rest)]
    rfl
  | .variant tag t, rest => by
    simp only [bind, tokensAppend, List.flatMap_cons]
    rw [← tokensAppend_bind f t (.close :: rest)]
    rfl

theorem fieldTokens_bind (f : α → Tree β) : ∀ (fs : List (String × Tree α))
    (rest : List (Token α)), fieldTokens (bindFields fs f) (rest.flatMap (expandToken f))
      = (fieldTokens fs rest).flatMap (expandToken f)
  | [], _ => rfl
  | (name, t) :: fs, rest => by
    simp only [bindFields, fieldTokens, List.flatMap_cons]
    rw [fieldTokens_bind f fs rest, tokensAppend_bind f t (fieldTokens fs rest)]
    rfl

theorem itemTokens_bind (f : α → Tree β) : ∀ (ts : List (Tree α)) (rest : List (Token α)),
    itemTokens (bindItems ts f) (rest.flatMap (expandToken f))
      = (itemTokens ts rest).flatMap (expandToken f)
  | [], _ => rfl
  | t :: ts, rest => by
    simp only [bindItems, itemTokens]
    rw [itemTokens_bind f ts rest, tokensAppend_bind f t (itemTokens ts rest)]

end

theorem tokens_bind (f : α → Tree β) (t : Tree α) :
    (t.bind f).tokens = t.tokens.flatMap (expandToken f) :=
  tokensAppend_bind f t []

end SyntaxExport.Tree
