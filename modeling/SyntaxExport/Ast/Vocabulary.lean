/-!
# Closed vocabularies

Payloads describe nodes with words from small closed sets. A vocabulary lists its members once each,
in order, and gives each the word that a document or a source text has for it.
-/

namespace SyntaxExport

/-- A closed set of members, each with its word. -/
class Vocabulary (α : Type) where
  /-- Every member, in order. -/
  all : List α
  /-- The word of a member. -/
  word : α → String
  /-- No member is left out. -/
  mem_all (a : α) : a ∈ all

end SyntaxExport
