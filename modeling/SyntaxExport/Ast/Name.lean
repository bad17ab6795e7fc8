/-!
# Names of declarations

A qualified name is one text with its components separated by `::`. `DeclName.components` splits it,
innermost component first; `joinScopes_splitScopes` says that the split loses nothing.
-/

namespace SyntaxExport

/-- Splits a text at every `::`, from left to right. -/
def splitScopes : List Char → List (List Char)
  | [] => [[]]
  | ':' :: ':' :: rest => [] :: splitScopes rest
  | c :: rest =>
    match splitScopes rest with
    | [] => [[c]]
    | part :: parts => (c :: part) :: parts

/-- Joins parts with `::`. -/
def joinScopes : List (List Char) → List Char
  | [] => []
  | [part] => part
  | part :: parts => part ++ ':' :: ':' :: joinScopes parts

theorem splitScopes_ne_nil (s : List Char) : splitScopes s ≠ [] := by
  fun_cases splitScopes s <;> simp_all

theorem joinScopes_splitScopes (s : List Char) : joinScopes (splitScopes s) = s := by
  fun_induction splitScopes s with
  | case1 => rfl
  | case2 rest ih =>
    obtain ⟨p, ps, h⟩ := List.exists_cons_of_ne_nil (splitScopes_ne_nil rest)
    rw [h] at ih ⊢
    simp [joinScopes, ih]
  | case3 c rest _ h => exact absurd h (splitScopes_ne_nil rest)
  | case4 c rest _ part parts h ih =>
    rw [h] at ih
    cases parts with
    | nil => simpa [joinScopes] using ih
    | cons q qs => simpa [joinScopes] using ih

/-- The name of a declaration. -/
structure DeclName where
  name : String
  /-- The name with the names of the enclosing scopes in front. -/
  qualified : String
  deriving DecidableEq, Repr, Inhabited

namespace DeclName

/-- The name of an unnamed declaration. -/
def anonymous : DeclName := ⟨"", ""⟩

/-- A name that is its own qualified name. -/
def simple (s : String) : DeclName := ⟨s, s⟩

/-- The name `s` inside the scope of a declaration named `outer`. Nothing is put in front where the
outer declaration has no qualified name. -/
def inside (outer : Option DeclName) (s : String) : DeclName :=
  match outer with
  | none => simple s
  | some o => if o.qualified = "" then simple s else ⟨s, o.qualified ++ "::" ++ s⟩

/-- The components of the qualified name, innermost first. -/
def components (n : DeclName) : List String :=
  ((splitScopes n.qualified.toList).map String.ofList).reverse

end DeclName

end SyntaxExport
