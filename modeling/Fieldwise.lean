import Fieldwise.CallTree.Basic
import Fieldwise.CallTree.Build
import Fieldwise.CallTree.Format
import Fieldwise.CallTree.Outline
import Fieldwise.Catalog.Acceptance
import Fieldwise.Catalog.Basic
import Fieldwise.Catalog.Builder
import Fieldwise.Catalog.Declaration
import Fieldwise.Catalog.FieldSet
import Fieldwise.Catalog.Format
import Fieldwise.Catalog.Load
import Fieldwise.Catalog.Members
import Fieldwise.Check.Batch
import Fieldwise.Check.Error
import Fieldwise.Check.Manifest
import Fieldwise.Check.Report
import Fieldwise.Check.Template
import Fieldwise.CommandLine.Arguments
import Fieldwise.CommandLine.Invocation
import Fieldwise.CommandLine.Run
import Fieldwise.Configuration.Basic
import Fieldwise.Configuration.Layer
import Fieldwise.Configuration.Load
import Fieldwise.Configuration.Overlay
import Fieldwise.Configuration.Setting
import Fieldwise.Decimal.Numeral
import Fieldwise.Decimal.Reading
import Fieldwise.Decimal.Scaled
import Fieldwise.Decimal.Shortest
import Fieldwise.Document.Basic
import Fieldwise.Document.Decode
import Fieldwise.Document.Json.Printer
import Fieldwise.Document.Json.Reader
import Fieldwise.Document.Toml.Printer
import Fieldwise.Document.Toml.Reader
import Fieldwise.Document.Toml.Scalar
import Fieldwise.Document.Toml.Table
import Fieldwise.Document.Toml.Text
import Fieldwise.Files.Basic
import Fieldwise.Files.Path
import Fieldwise.Files.Tree
import Fieldwise.Keyed
import Fieldwise.Main
import Fieldwise.Proofs.CallTree.Structure
import Fieldwise.Proofs.Validation.Walk
import Fieldwise.Template.Basic
import Fieldwise.Template.Error
import Fieldwise.Template.Expression
import Fieldwise.Template.Functions
import Fieldwise.Template.Lexeme
import Fieldwise.Template.Pos
import Fieldwise.Template.Segment
import Fieldwise.Template.Structure
import Fieldwise.Template.Token
import Fieldwise.Text.Alphabetic
import Fieldwise.Text.CodeRange
import Fieldwise.Text.Hexadecimal
import Fieldwise.Text.Hidden
import Fieldwise.Text.Lowercase
import Fieldwise.Text.Numeric
import Fieldwise.Text.Quoted
import Fieldwise.Text.Similarity
import Fieldwise.Text.Space
import Fieldwise.Text.Uppercase
import Fieldwise.TypeExpr.Basic
import Fieldwise.TypeExpr.Parser
import Fieldwise.Validation
import Fieldwise.Proofs.Validation.Union
import Fieldwise.Proofs.Catalog.Acceptance
import Fieldwise.Proofs.Catalog.Entries
import Fieldwise.Proofs.Catalog.Promotion
import Fieldwise.Proofs.Validation.Branches
import Fieldwise.Proofs.Validation.Closure
import Fieldwise.Proofs.CallTree.Paths
import Fieldwise.Proofs.CallTree.Template
import Fieldwise.Proofs.Template.Segments
import Fieldwise.Proofs.Template.Grammar
import Fieldwise.Proofs.Template.Expression
import Fieldwise.Proofs.Template.Assembly
import Fieldwise.Proofs.Template.Structure
import Fieldwise.Proofs.Template.Layout
import Fieldwise.Proofs.Template.Followed
import Fieldwise.Proofs.Template.Seam
import Fieldwise.Proofs.Template.Concatenation
import Fieldwise.Proofs.Template.Erasure
import Fieldwise.Proofs.Template.Textless
import Fieldwise.Proofs.CallTree.Union
import Fieldwise.Proofs.CallTree.Layout
import Fieldwise.Proofs.CallTree.Concatenation
import Fieldwise.Proofs.CallTree.Refusals
import Fieldwise.Proofs.CallTree.Noninterference
import Fieldwise.Proofs.Text.Lowercase
import Fieldwise.Proofs.Validation.Consistency
import Fieldwise.Proofs.Validation.Pointers
import Fieldwise.Proofs.Catalog.Following
import Fieldwise.Proofs.Validation.Termination
import Fieldwise.Proofs.Template.Field
import Fieldwise.Proofs.Validation.Shown
import Fieldwise.Proofs.Check.Batch
import Fieldwise.Proofs.Template.Places
import Fieldwise.Proofs.Template.Placement
import Fieldwise.Proofs.CallTree.Places
import Fieldwise.Proofs.CallTree.Inclusion
import Fieldwise.Proofs.CallTree.Growth
import Fieldwise.Proofs.Outcome
import Fieldwise.Proofs.Text.Space
import Fieldwise.Proofs.TypeExpr.Grammar
import Fieldwise.Proofs.TypeExpr.Parser
import Fieldwise.Proofs.TypeExpr.Rendering
import Fieldwise.Proofs.Catalog.Uncallable
import Fieldwise.Proofs.CallTree.Miscounts
import Fieldwise.Proofs.Template.Variables
import Fieldwise.Proofs.Template.Blocks
import Fieldwise.Proofs.Template.Braces
import Fieldwise.Proofs.Template.Stretches
import Fieldwise.Proofs.Validation.Order
import Fieldwise.Proofs.Template.Moves
import Fieldwise.Proofs.Template.Nesting
import Fieldwise.Proofs.Template.Chains
import Fieldwise.Proofs.Template.Enclosed
import Fieldwise.Proofs.CallTree.RangeOver
import Fieldwise.Proofs.Template.Rows
import Fieldwise.Proofs.Catalog.Extension
import Fieldwise.Proofs.CallTree.Outline
import Fieldwise.Proofs.Template.Numbers
import Fieldwise.Proofs.Catalog.Format
import Fieldwise.Proofs.Validation.Suggestions
