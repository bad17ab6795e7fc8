import SyntaxExport.Document.Tree

/-!
# Event streams

The log of the accepted calls of a document. Folding a complete log gives the document back; a log
that is not the log of one document folds to nothing.
-/

namespace SyntaxExport

/-- An entry of the log. -/
inductive Event where
  /-- A scope opened with its declared size. -/
  | scope (kind : ScopeKind) (arity : Nat)
  /-- A variant opened with its tag. -/
  | variant (tag : String)
  | close
  | tag (name : String)
  | scalar (s : Scalar)
  deriving DecidableEq, Repr

/-- The entry that an accepted call leaves. -/
def Event.ofCall : Call → Event
  | .container shape arity => .scope shape.scope arity
  | .variant t => .variant t
  | .close => .close
  | .tag name => .tag name
  | .leaf s => .scalar s

/-! ### Folding -/

/-- A container under construction, with its parts in reverse. -/
inductive Pending where
  | object (done : List (String × Value)) (tag : Option String)
  | array (done : List Value)
  | tuple (done : List Value)
  | variant (tag : String) (argument : Option Value)

namespace Pending

/-- Adds a part. A field needs its tag, and a variant has one argument. -/
def push? : Pending → Value → Option Pending
  | .object done (some name), v => some (.object ((name, v) :: done) none)
  | .object _ none, _ => none
  | .array done, v => some (.array (v :: done))
  | .tuple done, v => some (.tuple (v :: done))
  | .variant tag none, v => some (.variant tag (some v))
  | .variant _ (some _), _ => none

/-- The finished container. -/
def build? : Pending → Option Value
  | .object done none => some (.object done.reverse)
  | .object _ (some _) => none
  | .array done => some (.array done.reverse)
  | .tuple done => some (.tuple done.reverse)
  | .variant tag (some v) => some (.variant tag v)
  | .variant _ none => none

end Pending

/-- A log folded so far: the open containers, the innermost first, and the finished document. -/
structure Fold where
  pending : List Pending := []
  root : Option Value := none

namespace Fold

/-- Hands a finished value to the innermost container, or makes it the document. -/
def accept? (f : Fold) (v : Value) : Option Fold :=
  match f.pending with
  | p :: outer => (p.push? v).map fun p => { f with pending := p :: outer }
  | [] =>
    match f.root with
    | none => some { f with root := some v }
    | some _ => none

/-- Folds one more entry. -/
def step? (f : Fold) : Event → Option Fold
  | .scope .object _ => some { f with pending := .object [] none :: f.pending }
  | .scope .array _ => some { f with pending := .array [] :: f.pending }
  | .scope .tuple _ => some { f with pending := .tuple [] :: f.pending }
  | .scope .variant _ => none
  | .scope .document _ => none
  | .variant tag => some { f with pending := .variant tag none :: f.pending }
  | .tag name =>
    match f.pending with
    | .object done none :: outer => some { f with pending := .object done (some name) :: outer }
    | _ => none
  | .close =>
    match f.pending with
    | [] => none
    | p :: outer => p.build?.bind fun v => accept? { f with pending := outer } v
  | .scalar s => f.accept? (.leaf s)

end Fold

/-- The document whose log is `es`, whatever sizes the log declares. -/
def Value.ofEvents? (es : List Event) : Option Value :=
  match es.foldlM Fold.step? {} with
  | some { pending := [], root := root } => root
  | _ => none

/-! ### Queries -/

/-- Every string that directly follows a field tag with a given name. -/
def Event.fieldStrings (field : String) : List Event → List String
  | .tag name :: .scalar (.string s) :: rest =>
    if name = field then s :: fieldStrings field rest else fieldStrings field rest
  | _ :: rest => fieldStrings field rest
  | [] => []

end SyntaxExport
