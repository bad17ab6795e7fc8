import Std.Data.HashMap
import SyntaxExport.Identity.Basic

/-!
# Dense numbering of identities

A table numbers identities by first appearance, so a document written with these numbers depends on
the order of its nodes alone.
-/

namespace SyntaxExport

/-- How identities are written. -/
inductive IdentityMode where
  /-- As their hexadecimal words. -/
  | raw
  /-- As numbers, by first appearance. -/
  | anonymized
  deriving DecidableEq, Repr, Inhabited

/-- The identities seen so far with their numbers. -/
structure IdentityTable where
  numbers : Std.HashMap NodeIdentity Nat := {}

namespace IdentityTable

/-- The table that has seen nothing. -/
def empty : IdentityTable := {}

instance : Inhabited IdentityTable := ⟨empty⟩

def size (t : IdentityTable) : Nat :=
  t.numbers.size

def isEmpty (t : IdentityTable) : Bool :=
  t.size == 0

/-- The number of an identity that was seen. -/
def get? (t : IdentityTable) (i : NodeIdentity) : Option Nat :=
  t.numbers[i]?

/-- The number of an identity, which is the next free one at first sight. Numbers are words of 32
bits, and a full table keeps giving the last one. -/
def intern (t : IdentityTable) (i : NodeIdentity) : Nat × IdentityTable :=
  match t.get? i with
  | some n => (n, t)
  | none =>
    let next := min t.size (UInt32.size - 1)
    (next, ⟨t.numbers.insert i next⟩)

/-- The text of an identity. Only numbering changes the table. -/
def render (t : IdentityTable) (mode : IdentityMode) (i : NodeIdentity) : String × IdentityTable :=
  match mode with
  | .raw => (i.text, t)
  | .anonymized =>
    let (n, t) := t.intern i
    (toString n, t)

end IdentityTable

end SyntaxExport
