import SyntaxExport.Ast.Attr
import SyntaxExport.Ast.Builder
import SyntaxExport.Ast.Builtin
import SyntaxExport.Ast.Comment
import SyntaxExport.Ast.Context
import SyntaxExport.Ast.Decl
import SyntaxExport.Ast.Id
import SyntaxExport.Ast.Location
import SyntaxExport.Ast.Name
import SyntaxExport.Ast.Operator
import SyntaxExport.Ast.QualType
import SyntaxExport.Ast.Stmt
import SyntaxExport.Ast.Type
import SyntaxExport.Ast.Vocabulary
import SyntaxExport.Ast.Walk
import SyntaxExport.Ast.Word
import SyntaxExport.Cursor
import SyntaxExport.Document.Escape
import SyntaxExport.Document.Event
import SyntaxExport.Document.Recorder
import SyntaxExport.Document.Scope
import SyntaxExport.Document.Sink
import SyntaxExport.Document.Text
import SyntaxExport.Document.Tree
import SyntaxExport.Document.Writer
import SyntaxExport.Error
import SyntaxExport.Identity.Basic
import SyntaxExport.Identity.Table
import SyntaxExport.Index
import SyntaxExport.Kind.Basic
import SyntaxExport.Kind.Comment
import SyntaxExport.Kind.Decl
import SyntaxExport.Kind.Family
import SyntaxExport.Kind.Size
import SyntaxExport.Kind.Stmt
import SyntaxExport.Kind.Type
import SyntaxExport.Layout.Basic
import SyntaxExport.Layout.Comment
import SyntaxExport.Layout.Decl
import SyntaxExport.Layout.Stmt
import SyntaxExport.Layout.Type
import SyntaxExport.Options
import SyntaxExport.Options.Describe
import SyntaxExport.Pass
import SyntaxExport.Session
import SyntaxExport.Text.Hex
import SyntaxExport.Text.Inspect
import SyntaxExport.Text.Path
import SyntaxExport.Text.Shapeless
import SyntaxExport.Text.Utf8
import SyntaxExport.Proofs.Arity
import SyntaxExport.Proofs.Builder.Layouts
import SyntaxExport.Proofs.Builder.Links
import SyntaxExport.Proofs.Builder.Nodes
import SyntaxExport.Proofs.Builder.Positions
import SyntaxExport.Proofs.Builder.Requests
import SyntaxExport.Proofs.Builder.Steps
import SyntaxExport.Proofs.Building
import SyntaxExport.Proofs.Distinct
import SyntaxExport.Proofs.Document.Accepts
import SyntaxExport.Proofs.Document.Bind
import SyntaxExport.Proofs.Document.Complete
import SyntaxExport.Proofs.Document.Decoding
import SyntaxExport.Proofs.Document.Folding
import SyntaxExport.Proofs.Document.Frames
import SyntaxExport.Proofs.Document.Grammar
import SyntaxExport.Proofs.Document.InPlace
import SyntaxExport.Proofs.Document.Literals
import SyntaxExport.Proofs.Document.Lockstep
import SyntaxExport.Proofs.Document.Log
import SyntaxExport.Proofs.Document.Malformed
import SyntaxExport.Proofs.Document.Objects
import SyntaxExport.Proofs.Document.Outline
import SyntaxExport.Proofs.Document.Queries
import SyntaxExport.Proofs.Document.Reader
import SyntaxExport.Proofs.Document.Rejection
import SyntaxExport.Proofs.Document.RoundTrip
import SyntaxExport.Proofs.Document.Squeeze
import SyntaxExport.Proofs.Document.Streaming
import SyntaxExport.Proofs.Document.Trace
import SyntaxExport.Proofs.Document.Truncation
import SyntaxExport.Proofs.Document.Tuples
import SyntaxExport.Proofs.Exportable
import SyntaxExport.Proofs.Exportable.Basic
import SyntaxExport.Proofs.Exportable.Layout
import SyntaxExport.Proofs.Exportable.Nodes
import SyntaxExport.Proofs.Files
import SyntaxExport.Proofs.Identity.Extension
import SyntaxExport.Proofs.Identity.Numbering
import SyntaxExport.Proofs.Identity.Order
import SyntaxExport.Proofs.Identity.Text
import SyntaxExport.Proofs.Identity.Word
import SyntaxExport.Proofs.Index
import SyntaxExport.Proofs.Index.Lifecycle
import SyntaxExport.Proofs.Index.Numbers
import SyntaxExport.Proofs.Indexing
import SyntaxExport.Proofs.Kind.Lineage
import SyntaxExport.Proofs.Layout.Cost
import SyntaxExport.Proofs.Layout.Distinct
import SyntaxExport.Proofs.Layout.Inside
import SyntaxExport.Proofs.Layout.Outline
import SyntaxExport.Proofs.Layout.Parents
import SyntaxExport.Proofs.Layout.Tokens
import SyntaxExport.Proofs.Layout.Tuples
import SyntaxExport.Proofs.Layout.WellFormed
import SyntaxExport.Proofs.Levels
import SyntaxExport.Proofs.Lifecycle
import SyntaxExport.Proofs.Linear
import SyntaxExport.Proofs.Linking
import SyntaxExport.Proofs.Naming
import SyntaxExport.Proofs.Padding
import SyntaxExport.Proofs.Padding.Basic
import SyntaxExport.Proofs.Padding.Layout
import SyntaxExport.Proofs.Pass.Balance
import SyntaxExport.Proofs.Pass.Cost
import SyntaxExport.Proofs.Pass.Expansion
import SyntaxExport.Proofs.Pass.Filling
import SyntaxExport.Proofs.Pass.Lockstep
import SyntaxExport.Proofs.Pass.Nesting
import SyntaxExport.Proofs.Pass.Outline
import SyntaxExport.Proofs.Pass.Record
import SyntaxExport.Proofs.Pass.Script
import SyntaxExport.Proofs.Pass.Sound
import SyntaxExport.Proofs.Pass.Trace
import SyntaxExport.Proofs.Pass.Truncation
import SyntaxExport.Proofs.Pass.Visits
import SyntaxExport.Proofs.Pruning
import SyntaxExport.Proofs.Recording
import SyntaxExport.Proofs.Recursion
import SyntaxExport.Proofs.Renaming
import SyntaxExport.Proofs.Renaming.Basic
import SyntaxExport.Proofs.Renaming.Layout
import SyntaxExport.Proofs.Renaming.Nodes
import SyntaxExport.Proofs.Renaming.Pass
import SyntaxExport.Proofs.Renaming.Payloads
import SyntaxExport.Proofs.Renaming.Refl
import SyntaxExport.Proofs.Renumbering
import SyntaxExport.Proofs.Replay
import SyntaxExport.Proofs.Series
import SyntaxExport.Proofs.Squeezing
import SyntaxExport.Proofs.Streaming
import SyntaxExport.Proofs.Text.Hex
import SyntaxExport.Proofs.Text.Path
import SyntaxExport.Proofs.Visits
import SyntaxExport.Proofs.Walk
import SyntaxExport.Proofs.Walk.Reach
import SyntaxExport.Proofs.Walk.Volume
