/-!
# Paths

A path is read component by component. Repeated separators, a separator at the end and every `.` but
a leading one do not count. `Path.strip?` removes a leading directory; the result is a part of the
text of the path, so it keeps the separators and dots between the components that stay.
-/

namespace SyntaxExport

/-- A part of a path between two separators. -/
abbrev Piece := List Char

/-- Where a path starts. -/
inductive Anchor where
  /-- At the root directory: a leading separator. -/
  | root
  /-- At the current directory: a leading `.`. -/
  | current
  /-- At its first component. -/
  | bare
  deriving DecidableEq, Repr

/-- A path, cut at its separators. -/
structure Path where
  anchor : Anchor
  /-- The pieces after the anchor. -/
  pieces : List Piece
  deriving DecidableEq, Repr

namespace Path

/-- Cuts a text at every separator. -/
def cut : List Char → List Piece
  | [] => [[]]
  | c :: rest =>
    if c = '/' then [] :: cut rest
    else
      match cut rest with
      | [] => [[c]]
      | p :: ps => (c :: p) :: ps

/-- Joins pieces with separators. -/
def join : List Piece → List Char
  | [] => []
  | [p] => p
  | p :: ps => p ++ '/' :: join ps

def ofText : List Char → Path
  | '/' :: rest => ⟨.root, cut rest⟩
  | ['.'] => ⟨.current, cut []⟩
  | '.' :: '/' :: rest => ⟨.current, cut ('/' :: rest)⟩
  | s => ⟨.bare, cut s⟩

/-- The pieces that are no components. -/
def isBlank (p : Piece) : Bool :=
  p == [] || p == ['.']

/-- The names of the components after the anchor. -/
def names (path : Path) : List Piece :=
  path.pieces.filter (!isBlank ·)

/-- Whether a path has no component, not even an anchor. -/
def isEmpty (path : Path) : Bool :=
  path.anchor == .bare && path.names.isEmpty

def anchorText : Anchor → List Char
  | .root => ['/']
  | .current => ['.']
  | .bare => []

def dropBlankStart (ps : List Piece) : List Piece :=
  ps.dropWhile isBlank

def dropBlankEnd (ps : List Piece) : List Piece :=
  (dropBlankStart ps.reverse).reverse

/-- The text of a path without what does not count at its end. -/
def trimmed (path : Path) : List Char :=
  anchorText path.anchor ++ join (dropBlankEnd path.pieces)

/-- The pieces after those that carry the given names. -/
def after? : List Piece → List Piece → Option (List Piece)
  | [], ps => some ps
  | name :: names, ps =>
    match dropBlankStart ps with
    | [] => none
    | p :: rest => if p = name then after? names rest else none

/-- What is left of a path below a directory; `none` where the path does not lie below it. -/
def strip? (dir path : Path) : Option (List Char) :=
  if dir.isEmpty then some path.trimmed
  else if dir.anchor = path.anchor then
    (after? dir.names path.pieces).map fun rest => join (dropBlankEnd (dropBlankStart rest))
  else none

end Path

end SyntaxExport
