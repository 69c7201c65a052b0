import RustLint.CommandLine.Arguments
import RustLint.CommandLine.Run
import RustLint.Config
import RustLint.CrateIndex
import RustLint.Detection
import RustLint.FileTree
import RustLint.Finding
import RustLint.Fragment
import RustLint.Grammar
import RustLint.Lint
import RustLint.Log
import RustLint.Lowering
import RustLint.Lowering.Attribute
import RustLint.Lowering.Error
import RustLint.Lowering.Expr
import RustLint.Lowering.Forms
import RustLint.Lowering.Item
import RustLint.Lowering.Stmt
import RustLint.Lowering.Type
import RustLint.Main
import RustLint.Operator
import RustLint.ParseTree
import RustLint.Path
import RustLint.Proofs.Collapsing
import RustLint.Proofs.Collapsing.Attributes
import RustLint.Proofs.Collapsing.ElseIf
import RustLint.Proofs.Collapsing.Literals
import RustLint.Proofs.Collapsing.Placement
import RustLint.Proofs.Collapsing.Sites
import RustLint.Proofs.Configuration
import RustLint.Proofs.Configuration.Values
import RustLint.Proofs.Constructors.Additions
import RustLint.Proofs.Constructors.Convergence
import RustLint.Proofs.Constructors.DeriveEdits
import RustLint.Proofs.Constructors.Flagged
import RustLint.Proofs.Constructors.Inquired
import RustLint.Proofs.Constructors.Layout
import RustLint.Proofs.Constructors.Questions
import RustLint.Proofs.Constructors.UnknownHomes
import RustLint.Proofs.Detection
import RustLint.Proofs.Discovery
import RustLint.Proofs.Discovery.PathOrder
import RustLint.Proofs.Discovery.Patterns
import RustLint.Proofs.Discovery.Places
import RustLint.Proofs.Discovery.Walk
import RustLint.Proofs.Edits
import RustLint.Proofs.Grammar.History
import RustLint.Proofs.Grammar.Steps
import RustLint.Proofs.Grammar.Tolerance
import RustLint.Proofs.Index.Definitions
import RustLint.Proofs.Index.Entries
import RustLint.Proofs.Index.FileOrder
import RustLint.Proofs.Index.Growth
import RustLint.Proofs.Index.History
import RustLint.Proofs.Index.Instances
import RustLint.Proofs.Index.Names
import RustLint.Proofs.Index.Resolution
import RustLint.Proofs.Index.SameType
import RustLint.Proofs.Locations
import RustLint.Proofs.Lowering.Apart
import RustLint.Proofs.Lowering.Attribution
import RustLint.Proofs.Lowering.Comments
import RustLint.Proofs.Lowering.Completeness
import RustLint.Proofs.Lowering.Conservation
import RustLint.Proofs.Lowering.Containment
import RustLint.Proofs.Lowering.DeriveList
import RustLint.Proofs.Lowering.DeriveSpelling
import RustLint.Proofs.Lowering.Derives
import RustLint.Proofs.Lowering.Evaluation
import RustLint.Proofs.Lowering.Exported
import RustLint.Proofs.Lowering.Failure
import RustLint.Proofs.Lowering.Flattening
import RustLint.Proofs.Lowering.Items
import RustLint.Proofs.Lowering.Labels
import RustLint.Proofs.Lowering.Lookup
import RustLint.Proofs.Lowering.MacroBodies
import RustLint.Proofs.Lowering.OlderGrammar
import RustLint.Proofs.Lowering.Provenance
import RustLint.Proofs.Lowering.Success
import RustLint.Proofs.Lowering.Worklist
import RustLint.Proofs.Precedence.Combination
import RustLint.Proofs.Precedence.Conjunction
import RustLint.Proofs.Precedence.Grammar
import RustLint.Proofs.Precedence.Grouping
import RustLint.Proofs.Precedence.Operand
import RustLint.Proofs.Precedence.Placement
import RustLint.Proofs.Precedence.Reading
import RustLint.Proofs.Precedence.Regrouping
import RustLint.Proofs.Precedence.Token
import RustLint.Proofs.Precedence.TokenTree
import RustLint.Proofs.Report.Decoded
import RustLint.Proofs.Report.Layout
import RustLint.Proofs.Report.Margin
import RustLint.Proofs.Report.Reader
import RustLint.Proofs.Report.RoundTrip
import RustLint.Proofs.Report.Titles
import RustLint.Proofs.Skipping
import RustLint.Proofs.Suppression
import RustLint.Proofs.Suppression.EarlierText
import RustLint.Proofs.Suppression.Parts
import RustLint.Proofs.Suppression.Prefilter
import RustLint.Proofs.Suppression.Search
import RustLint.Proofs.Text.Columns
import RustLint.Proofs.Text.CutBytes
import RustLint.Proofs.Text.Encoding
import RustLint.Proofs.Text.Glob
import RustLint.Proofs.Text.Indentation
import RustLint.Proofs.Text.Insertions
import RustLint.Proofs.Text.LineNumbers
import RustLint.Proofs.Text.LineTable
import RustLint.Proofs.Text.LowerCase
import RustLint.Proofs.Text.Outdent
import RustLint.Proofs.Text.Positions
import RustLint.Proofs.Text.Reindent
import RustLint.Proofs.Text.Snippets
import RustLint.Proofs.Text.Strip
import RustLint.Proofs.Traversal
import RustLint.Report.Human
import RustLint.Report.Json
import RustLint.Report.Machine
import RustLint.Rules.CollapsibleIf
import RustLint.Rules.NewWithoutDefault
import RustLint.RustFile
import RustLint.Scan
import RustLint.Setting
import RustLint.Source
import RustLint.Span
import RustLint.StdLibrary
import RustLint.Suppression
import RustLint.Syntax.Node
import RustLint.Syntax.Tree
import RustLint.Syntax.Ty
import RustLint.Text.Blank
import RustLint.Text.Glob
import RustLint.Text.Indent
import RustLint.Text.LineTable
import RustLint.Text.Lines
import RustLint.Text.Lower
import RustLint.Text.Quoted
import RustLint.Text.Segments
import RustLint.Text.Table.Cased
import RustLint.Text.Table.Lower
import RustLint.Text.Table.Unprintable
import RustLint.Text.Utf8
import RustLint.Toml.Document
import RustLint.Toml.Scalar
import RustLint.Toml.Text
import RustLint.Toml.Value
import RustLint.TypeOracle
