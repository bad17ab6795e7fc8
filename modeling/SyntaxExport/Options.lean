import SyntaxExport.Ast.Context
import SyntaxExport.Document.Text
import SyntaxExport.Identity.Table
import SyntaxExport.Text.Path
import SyntaxExport.Text.Utf8

/-!
# Options of a document
-/

namespace SyntaxExport

/-- Why options are refused. -/
inductive ConfigError where
  | emptyStripPrefix
  /-- The prefix, with U+FFFD for what is broken. -/
  | nonUtf8Prefix (prefixText : String)
  deriving DecidableEq, Repr

/-- The short name of an error. -/
def ConfigError.name : ConfigError → String
  | .emptyStripPrefix => "EmptyStripPrefix"
  | .nonUtf8Prefix _ => "NonUtf8Prefix"

def ConfigError.message : ConfigError → String
  | .emptyStripPrefix => "path prefix to strip is empty"
  | .nonUtf8Prefix p => "path prefix to strip is not valid UTF-8: " ++ p

/-- How file names are changed on their way into a document. -/
inductive PathRule where
  | unchanged
  /-- Removes a leading directory, component by component. The directory is given by its bytes. -/
  | stripPrefix (dir : ByteArray)
  | custom (change : String → String)

namespace PathRule

/-- The file name that a document holds for `path`. A directory that is no text is above no path. -/
def normalize : PathRule → String → String
  | .unchanged, path => path
  | .stripPrefix dir, path =>
    match String.fromUTF8? dir with
    | none => path
    | some dir =>
      match (Path.ofText dir.toList).strip? (Path.ofText path.toList) with
      | none => path
      | some rest => String.ofList rest
  | .custom change, path => change path

/-- A directory to strip must be a text and not empty. -/
def validate : PathRule → Except ConfigError Unit
  | .unchanged => .ok ()
  | .stripPrefix dir =>
    if dir.size = 0 then .error .emptyStripPrefix
    else if (String.fromUTF8? dir).isNone then .error (.nonUtf8Prefix (Utf8.decodeLossy dir))
    else .ok ()
  | .custom _ => .ok ()

end PathRule

/-- Decides which children of a declaration context are written. The error is a file that is not in
the file table. -/
structure DeclFilter where
  keeps : Context → Decl → Except FileId Bool

/-- Drops the declarations whose range begins in one of the named files. -/
def DeclFilter.skipFiles (names : List String) : DeclFilter where
  keeps ctx d :=
    match d.range.file? with
    | none => .ok true
    | some f =>
      match ctx.fileName? f with
      | none => .error f
      | some name => .ok (!names.contains name)

/-- The options of one document. -/
structure Options where
  identityMode : IdentityMode := .anonymized
  /-- Whether text is laid out on several lines. -/
  pretty : Bool := false
  dialect : Dialect := .json
  paths : PathRule := .unchanged
  /-- Without a filter every child is written. -/
  filter : Option DeclFilter := none

namespace Options

instance : Inhabited Options := ⟨{}⟩

def textFormat (o : Options) : TextFormat :=
  ⟨o.dialect, o.pretty⟩

/-- Whether identities are written as their words. -/
def writesRawIdentities (o : Options) : Bool :=
  o.identityMode == .raw

def validate (o : Options) : Except ConfigError Unit :=
  o.paths.validate

/-- Whether a child of a declaration context is written. -/
def keeps (o : Options) (ctx : Context) (d : Decl) : Except FileId Bool :=
  match o.filter with
  | none => .ok true
  | some f => f.keeps ctx d

end Options

end SyntaxExport
