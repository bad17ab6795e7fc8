import SyntaxExport.Document.Scope
import SyntaxExport.Identity.Basic
import SyntaxExport.Kind.Decl
import SyntaxExport.Options

/-!
# Failures of a document
-/

namespace SyntaxExport

/-- Why a document is not written, or not to its end. -/
inductive ExportError where
  | write (e : WriteError)
  /-- The file of the document cannot be made. -/
  | io
  | config (e : ConfigError)
  | unknownKind (family : Family) (name : String)
  /-- A node whose kind is only a level of the hierarchy. -/
  | abstractKind (family : Family) (tag : String)
  /-- A node without the payload or facet that a level of its kind reads. -/
  | missingPayload (tag expected : String)
  | invalidRoot (kind : DeclKind)
  | danglingRoot
  | danglingNode (node : NodeRef)
  | sessionInUse
  /-- A location in a file that is not in the file table. -/
  | unknownFile (file : FileId)
  /-- A type that is spelled and is not in the context. -/
  | unknownType (type : TypeId)
  /-- A node that is defined inside itself. -/
  | cyclic
  deriving DecidableEq, Repr

/-- The short name of a failure, which is that of the innermost error. -/
def ExportError.name : ExportError → String
  | .write e => e.name
  | .io => "Io"
  | .config e => e.name
  | .unknownKind .. => "UnknownKind"
  | .abstractKind .. => "AbstractKind"
  | .missingPayload .. => "MissingPayload"
  | .invalidRoot _ => "InvalidRoot"
  | .danglingRoot => "DanglingRoot"
  | .danglingNode _ => "DanglingNode"
  | .sessionInUse => "SessionInUse"
  | .unknownFile _ => "UnknownFile"
  | .unknownType _ => "UnknownType"
  | .cyclic => "Cyclic"

def ExportError.message : ExportError → String
  | .write e => e.message
  | .io => "cannot open export output"
  | .config e => e.message
  | .unknownKind family name => "unknown " ++ family.name ++ " kind `" ++ name ++ "`"
  | .abstractKind family tag => family.name ++ " node has abstract kind `" ++ tag ++ "`"
  | .missingPayload tag expected =>
    "`" ++ tag ++ "` node lacks the payload its kind requires (" ++ expected ++ ")"
  | .invalidRoot kind =>
    "export root must be a translation unit, found `" ++ NodeKind.tag kind ++ "`"
  | .danglingRoot => "export root id is not in the context"
  | .danglingNode node => node.describe ++ " is referenced but not in the context"
  | .sessionInUse => "export session is still in use by an unfinished export"
  | .unknownFile file => "file " ++ toString file.toNat ++ " is not in the file table"
  | .unknownType type => "type " ++ toString type.toNat ++ " is not in the context"
  | .cyclic => "a node is defined inside itself"

end SyntaxExport
