import SyntaxExport.Kind.Basic

/-!
# Comment kinds

The kinds of documentation comments.
-/

namespace SyntaxExport

/-- A documentation comment kind. The order of the constructors is the order of the table. -/
inductive CommentKind where
  | comment | noComment | inlineContentComment | textComment | inlineCommandComment
  | htmlTagComment | htmlStartTagComment | htmlEndTagComment | blockContentComment
  | paragraphComment | blockCommandComment | paramCommandComment | tParamCommandComment
  | verbatimBlockComment | verbatimLineComment | verbatimBlockLineComment | fullComment
  deriving DecidableEq, Repr, Inhabited

namespace CommentKind

/-- Every comment kind, in table order. -/
def all : List CommentKind :=
  [.comment, .noComment, .inlineContentComment, .textComment, .inlineCommandComment,
   .htmlTagComment, .htmlStartTagComment, .htmlEndTagComment, .blockContentComment,
   .paragraphComment, .blockCommandComment, .paramCommandComment, .tParamCommandComment,
   .verbatimBlockComment, .verbatimLineComment, .verbatimBlockLineComment, .fullComment]

/-- The short name of a kind. -/
def name : CommentKind → String
  | .comment => "Comment"
  | .noComment => "NoComment"
  | .inlineContentComment => "InlineContentComment"
  | .textComment => "TextComment"
  | .inlineCommandComment => "InlineCommandComment"
  | .htmlTagComment => "HTMLTagComment"
  | .htmlStartTagComment => "HTMLStartTagComment"
  | .htmlEndTagComment => "HTMLEndTagComment"
  | .blockContentComment => "BlockContentComment"
  | .paragraphComment => "ParagraphComment"
  | .blockCommandComment => "BlockCommandComment"
  | .paramCommandComment => "ParamCommandComment"
  | .tParamCommandComment => "TParamCommandComment"
  | .verbatimBlockComment => "VerbatimBlockComment"
  | .verbatimLineComment => "VerbatimLineComment"
  | .verbatimBlockLineComment => "VerbatimBlockLineComment"
  | .fullComment => "FullComment"

/-- The kind one level up; only the root of the family has none. -/
def parent : CommentKind → Option CommentKind
  | .comment => none
  | .noComment | .inlineContentComment | .blockContentComment | .verbatimBlockLineComment
  | .fullComment => some .comment
  | .textComment | .inlineCommandComment | .htmlTagComment => some .inlineContentComment
  | .htmlStartTagComment | .htmlEndTagComment => some .htmlTagComment
  | .paragraphComment | .blockCommandComment => some .blockContentComment
  | .paramCommandComment | .tParamCommandComment | .verbatimBlockComment | .verbatimLineComment
    => some .blockCommandComment

/-- The kinds that only occur as levels of the hierarchy. -/
def isAbstract : CommentKind → Bool
  | .comment | .inlineContentComment | .htmlTagComment | .blockContentComment => true
  | _ => false

/-- The number of fields a level adds to the tuple of the level above it. -/
def ownFieldCount : CommentKind → Nat
  | .comment => 2
  | .textComment | .inlineCommandComment | .htmlTagComment | .htmlStartTagComment
  | .blockCommandComment | .paramCommandComment | .tParamCommandComment | .verbatimBlockComment
  | .verbatimLineComment | .verbatimBlockLineComment => 1
  | .noComment | .inlineContentComment | .htmlEndTagComment | .blockContentComment
  | .paragraphComment | .fullComment => 0

instance : NodeKind CommentKind where
  family := .comment
  all := all
  name := name
  parent := parent
  isAbstract := isAbstract
  ownFieldCount := ownFieldCount
  rank k := k.ctorIdx
  rank_parent_lt k := by cases k <;> decide

end CommentKind

end SyntaxExport
