import Weave.Artifact
import Weave.Bytes.Base64
import Weave.Bytes.Digest
import Weave.Chunk.Basic
import Weave.Chunk.Cut
import Weave.Chunk.Normalize
import Weave.Command
import Weave.Command.Item
import Weave.Command.Request
import Weave.CommonMark.Block
import Weave.CommonMark.Container
import Weave.CommonMark.Entity
import Weave.CommonMark.Html
import Weave.CommonMark.Inline
import Weave.CommonMark.Line
import Weave.CommonMark.Link
import Weave.CommonMark.Spacing
import Weave.CommonMark.VisibleText
import Weave.Failure
import Weave.Files.Fault
import Weave.Files.FileSystem
import Weave.Files.Path
import Weave.Files.Tree
import Weave.Filter
import Weave.Filter.BlockComment
import Weave.Filter.LineTag
import Weave.Filter.Marker
import Weave.Filter.Substitution
import Weave.Json.Basic
import Weave.Json.Number
import Weave.Json.Printer
import Weave.Json.Reader
import Weave.Json.Record
import Weave.Lit.Diagnostic
import Weave.Lit.Evaluate
import Weave.Lit.Fault
import Weave.Lit.Lexer
import Weave.Lit.Parser
import Weave.Lit.Session
import Weave.Lit.Syntax
import Weave.Lit.Token
import Weave.Lit.Value
import Weave.Main
import Weave.Mime
import Weave.Notebook.Basic
import Weave.Notebook.Building
import Weave.Notebook.CellHeader
import Weave.Notebook.Execution
import Weave.Notebook.Printer
import Weave.Notebook.Reader
import Weave.Number.Binary64
import Weave.Number.Power
import Weave.Number.Shortest
import Weave.Page
import Weave.Proofs.Text.Rows
import Weave.Proofs.Text.Trimming
import Weave.Sandbox
import Weave.Script
import Weave.Settings
import Weave.Settings.Reader
import Weave.Target
import Weave.Text.Alphanumeric
import Weave.Text.Basic
import Weave.Text.Blank
import Weave.Text.CaseFold
import Weave.Text.CharTable
import Weave.Text.Lines
import Weave.Text.Numeral
import Weave.Text.Punctuation
import Weave.Text.Quoted
import Weave.Text.Utf8
import Weave.Text.Width
import Weave.Toml.Basic
import Weave.Toml.Reader
import Weave.Proofs.Chunk.Conservation
import Weave.Proofs.Filter.BlockComment
import Weave.Proofs.Filter.LineTag
import Weave.Proofs.Filter.Substitution
import Weave.Proofs.Filter.Repetition
import Weave.Proofs.Lit.Spelling
import Weave.Proofs.Lit.Grammar
import Weave.Proofs.Lit.Reading
import Weave.Proofs.Lit.Acceptance
import Weave.Proofs.Lit.Effectful
import Weave.Proofs.Lit.Offsets
import Weave.Proofs.Lit.Height
import Weave.Proofs.Lit.Lexing
import Weave.Proofs.Lit.Joining
import Weave.Proofs.Lit.Pieces
import Weave.Proofs.Lit.Printing
import Weave.Proofs.Lit.RoundTrip
import Weave.Proofs.Lit.Overflow
import Weave.Proofs.Sandbox.Suppression
import Weave.Proofs.Files.Walking
import Weave.Proofs.Files.Writing
import Weave.Proofs.Page.Images
import Weave.Proofs.Stateful
import Weave.Proofs.Files.Growth
import Weave.Proofs.Files.Naming
import Weave.Proofs.Page.Groups
import Weave.Proofs.Lit.Layout
import Weave.Proofs.Lit.SyntaxSpans
import Weave.Proofs.Lit.FaultSpans
import Weave.Proofs.Command.Effects
import Weave.Proofs.Command.Source
import Weave.Proofs.Sandbox.Sequence
import Weave.Proofs.Notebook.Running
import Weave.Proofs.Text.Append
import Weave.Proofs.Text.Replacement
import Weave.Proofs.Filter.Tail
import Weave.Proofs.Chunk.Tail
import Weave.Proofs.Artifact.Credit
import Weave.Proofs.Text.Blanks
import Weave.Proofs.Lit.TrailingBlanks
import Weave.Proofs.Sandbox.Trimming
import Weave.Proofs.Chunk.Endings
import Weave.Proofs.Page.Running
import Weave.Proofs.Artifact.Agreement
import Weave.Proofs.Page.Fences
import Weave.Proofs.Json.Scalars
import Weave.Proofs.Json.Layout
import Weave.Proofs.Json.Records
import Weave.Proofs.Notebook.Reading
import Weave.Proofs.Lit.Consistency
import Weave.Proofs.Lit.Locality
import Weave.Proofs.Chunk.Merging
import Weave.Proofs.Chunk.Edges
import Weave.Proofs.Chunk.Joins
import Weave.Proofs.Chunk.BareLines
import Weave.Proofs.Chunk.NormalForm
import Weave.Proofs.Chunk.Runs
import Weave.Proofs.Filter.Peeling
import Weave.Proofs.Filter.Scanning
import Weave.Proofs.Filter.Labels
import Weave.Proofs.Filter.Placeholders
import Weave.Proofs.Notebook.Heads
import Weave.Proofs.Filter.Expansion
import Weave.Proofs.Json.Maps
import Weave.Proofs.Notebook.HeadFaults
import Weave.Proofs.Notebook.Building
