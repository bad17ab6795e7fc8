import SyntaxExport.Cursor
import SyntaxExport.Document.Writer
import SyntaxExport.Layout.Comment
import SyntaxExport.Layout.Decl
import SyntaxExport.Layout.Stmt

/-!
# Writing layouts

A pass writes layouts into a document writer. It fills the slots from what was written before: the
location cursor and the numbering of identities. It ends at the first fault and at the first call
that the writer rejects, and keeps what was written up to there.

`Pass.site` defines a node with everything that is defined inside it. Its fuel bounds the nesting of
definitions, which only a node defined inside itself exceeds.
-/

namespace SyntaxExport

/-- The layout of what a site defines. -/
def Site.layout (ctx : Context) (opts : Options) : Site → Layout
  | .decl none => Layout.declNode ctx opts (.sentinel .decl) Layout.sentinelDecl
  | .decl (some id) =>
    match ctx.decl? id with
    | none => Layout.fault (.danglingNode (.decl id))
    | some d => Layout.declNode ctx opts (.decl id) d
  | .stmt none => Layout.stmtNode ctx (.sentinel .stmt) Layout.sentinelStmt
  | .stmt (some id) =>
    match ctx.stmt? id with
    | none => Layout.fault (.danglingNode (.stmt id))
    | some s => Layout.stmtNode ctx (.stmt id) s
  | .comment none => Layout.commentNode ctx (.sentinel .comment) Layout.sentinelComment
  | .comment (some id) =>
    match ctx.comment? id with
    | none => Layout.fault (.danglingNode (.comment id))
    | some c => Layout.commentNode ctx (.comment id) c

/-- The state of a pass. -/
structure Pass (σ : Type) where
  cursor : LocationCursor
  identities : IdentityTable
  writer : σ

/-- A part of a pass. -/
abbrev PassStep (σ : Type) := Pass σ → Except ExportError Unit × Pass σ

namespace Pass

variable {σ : Type}

/-- One part after the other, up to the first that fails. -/
def all : List (PassStep σ) → PassStep σ
  | [], p => (.ok (), p)
  | step :: steps, p =>
    match step p with
    | (.ok (), p) => all steps p
    | (.error e, p) => (.error e, p)

def fail (e : ExportError) : PassStep σ := fun p =>
  (.error e, p)

variable [DocumentWriter σ]

/-- One call of the writer. -/
def call (c : Call) : PassStep σ := fun ⟨cursor, identities, writer⟩ =>
  match DocumentWriter.call c writer with
  | (.ok (), writer) => (.ok (), ⟨cursor, identities, writer⟩)
  | (.error e, writer) => (.error (.write e), ⟨cursor, identities, writer⟩)

/-- A field with a scalar. -/
def field (name : String) (value : Scalar) : PassStep σ :=
  all [call (.tag name), call (.leaf value)]

/-- The text of an identity. -/
def identity (mode : IdentityMode) (node : NodeRef) : PassStep σ :=
  fun ⟨cursor, identities, writer⟩ =>
    let (text, identities) := identities.render mode node.identity
    call (.leaf (.string text)) ⟨cursor, identities, writer⟩

/-- The field with the name of a file. -/
def fileField (ctx : Context) (paths : PathRule) (file : FileId) : PassStep σ :=
  match ctx.fileName? file with
  | none => all [call (.tag "file"), fail (.unknownFile file)]
  | some name => field "file" (.string (paths.normalize name))

/-- The fields of a relative location. -/
def deltaFields (ctx : Context) (paths : PathRule) : LocationDelta → List (PassStep σ)
  | .absent => []
  | .column c => [field "column" (.unsigned c)]
  | .line l c => [field "line" (.unsigned l), field "column" (.unsigned c)]
  | .file f l c =>
    [fileField ctx paths f, field "line" (.unsigned l), field "column" (.unsigned c)]

/-- Moves the cursor to a location. -/
def moveTo (loc : Option SourceLocation) : PassStep σ := fun p =>
  (.ok (), { p with cursor := p.cursor.advance loc })

/-- A location relative to the cursor, which moves to it. -/
def location (ctx : Context) (paths : PathRule) (loc : Option SourceLocation) : PassStep σ :=
  fun p =>
    let delta := p.cursor.delta loc
    all (call (.container .object delta.fieldCount) :: deltaFields ctx paths delta
      ++ [moveTo loc, call .close]) p

/-- One token of a layout; `define` defines a node. -/
def token (ctx : Context) (opts : Options) (define : Site → PassStep σ) : Token Item → PassStep σ
  | .container shape arity => call (.container shape arity)
  | .variant tag => call (.variant tag)
  | .close => call .close
  | .tag name => call (.tag name)
  | .leaf (.scalar s) => call (.leaf s)
  | .leaf (.identity node) => identity opts.identityMode node
  | .leaf (.location loc) => location ctx opts.paths loc
  | .leaf (.define site) => define site
  | .leaf (.fault e) => fail e

/-- A layout; `define` defines a node. -/
def layout (ctx : Context) (opts : Options) (define : Site → PassStep σ) (l : Layout) :
    PassStep σ :=
  all (l.tokens.map (token ctx opts define))

/-- Defines a node with everything inside it. -/
def site (ctx : Context) (opts : Options) : Nat → Site → PassStep σ
  | 0, _ => fail .cyclic
  | fuel + 1, s => layout ctx opts (site ctx opts fuel) (s.layout ctx opts)

end Pass

namespace LocationCursor

variable {σ : Type} [DocumentWriter σ]

/-- Writes a range relative to a cursor: the cursor after it, and the writer. -/
def writeRange (ctx : Context) (paths : PathRule) (r : SourceRange) (cursor : LocationCursor)
    (writer : σ) : Except ExportError Unit × LocationCursor × σ :=
  let (result, p) :=
    Pass.layout ctx { paths := paths } (fun _ => Pass.fail .cyclic) (Layout.range r)
      ⟨cursor, .empty, writer⟩
  (result, p.cursor, p.writer)

/-- Writes a location relative to a cursor: the cursor after it, and the writer. -/
def write (ctx : Context) (paths : PathRule) (loc : Option SourceLocation) (cursor : LocationCursor)
    (writer : σ) : Except ExportError Unit × LocationCursor × σ :=
  let (result, p) := Pass.location ctx paths loc ⟨cursor, .empty, writer⟩
  (result, p.cursor, p.writer)

end LocationCursor

end SyntaxExport
