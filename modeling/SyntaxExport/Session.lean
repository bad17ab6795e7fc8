import SyntaxExport.Document.Recorder
import SyntaxExport.Document.Sink
import SyntaxExport.Pass

/-!
# Sessions

A session carries what outlives one document: the numbering of identities, which goes on from
document to document, and the location cursor, which starts afresh. Options and root are checked
before anything is written. A document that fails after that leaves the session in use until it is
reset.
-/

namespace SyntaxExport

/-- What outlives one document. -/
structure Session where
  cursor : LocationCursor := {}
  identities : IdentityTable := .empty
  /-- Whether a document was begun and not ended. -/
  inUse : Bool := false

/-- The root of a document must be a translation unit of the context. -/
def Context.checkRoot (ctx : Context) (root : DeclId) : Except ExportError Unit :=
  match ctx.decl? root with
  | none => .error .danglingRoot
  | some d => if d.kind = .translationUnit then .ok () else .error (.invalidRoot d.kind)

/-- What is checked before a document is begun. -/
def Options.check (opts : Options) (ctx : Context) (root : DeclId) : Except ExportError Unit :=
  match opts.validate with
  | .error e => .error (.config e)
  | .ok () => ctx.checkRoot root

namespace Session

instance : Inhabited Session := ⟨{}⟩

variable {σ : Type} [DocumentWriter σ]

/-- The pass over the translation unit under `root`, up to the end of the document. -/
def runPass (ctx : Context) (root : DeclId) (opts : Options) : PassStep σ :=
  Pass.all [Pass.site ctx opts ctx.nestingBound (.decl (some root)), fun p =>
    match DocumentWriter.finish p.writer with
    | (.ok (), writer) => (.ok (), { p with writer := writer })
    | (.error e, writer) => (.error (.write e), { p with writer := writer })]

/-- Writes the translation unit under `root`. -/
def write (ctx : Context) (root : DeclId) (opts : Options) (s : Session) (writer : σ) :
    Except ExportError Unit × Session × σ :=
  if s.inUse then (.error .sessionInUse, s, writer)
  else
    match opts.check ctx root with
    | .error e => (.error e, s, writer)
    | .ok () =>
      match runPass ctx root opts ⟨{}, s.identities, writer⟩ with
      | (.ok (), p) => (.ok (), ⟨p.cursor, p.identities, false⟩, p.writer)
      | (.error e, p) => (.error e, ⟨p.cursor, p.identities, true⟩, p.writer)

/-- A session refuses a document and changes nothing, or it makes the pass and is in use after it unless
the pass succeeds. -/
theorem write_cases (ctx : Context) (root : DeclId) (opts : Options) (s : Session) (w : σ) :
    (∃ e, s.write ctx root opts w = (.error e, s, w)) ∨
    (opts.check ctx root = .ok () ∧ ∃ result p,
      runPass ctx root opts ⟨{}, s.identities, w⟩ = (result, p) ∧
      s.write ctx root opts w = (result, ⟨p.cursor, p.identities, !result.isOk⟩, p.writer)) := by
  rw [write]
  split
  · exact .inl ⟨_, rfl⟩
  cases hcheck : opts.check ctx root with
  | error e => exact .inl ⟨e, rfl⟩
  | ok =>
    refine .inr ⟨rfl, ?_⟩
    cases hrun : runPass ctx root opts ⟨{}, s.identities, w⟩ with
    | mk result p => cases result <;> exact ⟨_, p, rfl, rfl⟩

/-- Forgets everything. -/
def reset (_ : Session) : Session := {}

/-- Starts the numbering of identities afresh. -/
def resetIdentities (s : Session) : Session :=
  { s with identities := .empty }

end Session

/-! ### Single documents -/

/-- Writes the translation unit under `root` in a session of its own. -/
def writeDocument {σ : Type} [DocumentWriter σ] (ctx : Context) (root : DeclId) (opts : Options)
    (writer : σ) : Except ExportError Unit × σ :=
  let (result, _, writer) := ({} : Session).write ctx root opts writer
  (result, writer)

/-- Writes the translation unit under `root` as text. -/
def writeText (ctx : Context) (root : DeclId) (opts : Options) (sink : Sink) :
    Except ExportError Unit × Sink :=
  let (result, writer) :=
    writeDocument ctx root opts { format := opts.textFormat, sink := sink : TextWriter }
  (result, writer.sink)

/-- Writes the translation unit under `root` as text to a new file, and gives what the file holds.
The file is made after options and root are checked, so a refused document leaves none. -/
def writeFile (ctx : Context) (root : DeclId) (opts : Options) (canCreate : Bool) :
    Except ExportError Unit × Option ByteArray :=
  match opts.check ctx root with
  | .error e => (.error e, none)
  | .ok () =>
    if canCreate then
      let (result, sink) := writeText ctx root opts {}
      (result, some sink.bytes)
    else (.error .io, none)

end SyntaxExport
