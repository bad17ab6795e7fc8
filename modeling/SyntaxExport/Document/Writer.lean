import SyntaxExport.Document.Tree

/-!
# Document writers

A writer is a state that takes calls one by one. A call may be rejected, and the writer then goes on
from the state it was left in.

Every writer makes the checks of `ScopeStack.account`, which depend on the sort of a token and not on
what a leaf holds.
-/

namespace SyntaxExport

/-- Accounts for a token; a leaf counts as one value. -/
def ScopeStack.account {α : Type} (s : ScopeStack) : Token α → Except WriteError ScopeStack
  | .container shape arity => (·.2) <$> s.enter shape.scope arity
  | .variant _ => (·.2) <$> s.enter .variant 1
  | .close => (·.2) <$> s.close
  | .tag _ => (·.2) <$> s.tag
  | .leaf _ => (·.2) <$> s.value

/-- States that a document can be written into. -/
class DocumentWriter (σ : Type) where
  /-- Takes one call. -/
  call : Call → σ → Except WriteError Unit × σ
  /-- Ends the document. -/
  finish : σ → Except WriteError Unit × σ

/-- A call, or the end of the document. -/
inductive Command where
  | call (c : Call)
  | finish
  deriving DecidableEq, Repr

namespace Command

variable {σ : Type} [DocumentWriter σ]

/-- Carries out one command. -/
def perform : Command → σ → Except WriteError Unit × σ
  | .call c => DocumentWriter.call c
  | .finish => DocumentWriter.finish

/-- Carries out commands up to the first that is rejected. -/
def performAll : List Command → σ → Except WriteError Unit × σ
  | [], w => (.ok (), w)
  | c :: cs, w =>
    match c.perform w with
    | (.ok (), w) => performAll cs w
    | (.error e, w) => (.error e, w)

/-- The field `name: true` where `value` holds, and nothing otherwise. -/
def flag (name : String) (value : Bool) : List Command :=
  if value then [.call (.tag name), .call (.leaf (.boolean true))] else []

/-- A container around what `body` writes. -/
def container (shape : Shape) (arity : Nat) (body : List Command) : List Command :=
  .call (.container shape arity) :: body ++ [.call .close]

/-- A variant around what `body` writes. -/
def variant (tag : String) (body : List Command) : List Command :=
  .call (.variant tag) :: body ++ [.call .close]

end Command

end SyntaxExport
