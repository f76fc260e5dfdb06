import Typings.Address
import Typings.CommandLine
import Typings.Console
import Typings.Decimal.Arithmetic
import Typings.Decimal.Double
import Typings.Decimal.Numeral
import Typings.Decimal.Shortest
import Typings.Declaration
import Typings.Discovery
import Typings.Disk
import Typings.Document
import Typings.Emission
import Typings.Failure
import Typings.Files
import Typings.Generator
import Typings.Json.Display
import Typings.Json.Equality
import Typings.Json.Extra
import Typings.Json.Literal
import Typings.Json.Number
import Typings.Json.Printer
import Typings.Json.Reader
import Typings.Json.Value
import Typings.Main
import Typings.Moment
import Typings.Name
import Typings.Namespace
import Typings.Naming
import Typings.Node
import Typings.Normal
import Typings.Normal.Merge
import Typings.Normal.Types
import Typings.Notice
import Typings.Operation
import Typings.Path
import Typings.Pattern
import Typings.Placement
import Typings.Pointer
import Typings.Proofs.Address
import Typings.Proofs.Alias
import Typings.Proofs.Ancestry
import Typings.Proofs.Binding
import Typings.Proofs.Circle
import Typings.Proofs.Closure
import Typings.Proofs.Comment
import Typings.Proofs.Copies
import Typings.Proofs.Depth
import Typings.Proofs.Distinct
import Typings.Proofs.Emission
import Typings.Proofs.Equality
import Typings.Proofs.Extraction
import Typings.Proofs.Fetching
import Typings.Proofs.Flattening
import Typings.Proofs.Folding
import Typings.Proofs.Ground
import Typings.Proofs.Integrity
import Typings.Proofs.Key
import Typings.Proofs.Ledger
import Typings.Proofs.Leftover
import Typings.Proofs.Marks
import Typings.Proofs.Merging
import Typings.Proofs.Navigation
import Typings.Proofs.Normal
import Typings.Proofs.NormalForm
import Typings.Proofs.Operand
import Typings.Proofs.Operations
import Typings.Proofs.Outcome
import Typings.Proofs.Outline
import Typings.Proofs.Override
import Typings.Proofs.Parameters
import Typings.Proofs.Parts
import Typings.Proofs.Percent
import Typings.Proofs.Permutation
import Typings.Proofs.Pipeline
import Typings.Proofs.Placement
import Typings.Proofs.Places
import Typings.Proofs.Pointer
import Typings.Proofs.Preorder
import Typings.Proofs.Qualified
import Typings.Proofs.Quiet
import Typings.Proofs.Reach
import Typings.Proofs.Replacement
import Typings.Proofs.Requests
import Typings.Proofs.Rounds
import Typings.Proofs.Scan
import Typings.Proofs.Shift
import Typings.Proofs.Spelling
import Typings.Proofs.Stability
import Typings.Proofs.Synthesis
import Typings.Proofs.Table
import Typings.Proofs.Tidy
import Typings.Proofs.Trace
import Typings.Proofs.TypeName
import Typings.Proofs.Unwinding
import Typings.Proofs.Upkeep
import Typings.Proofs.Url
import Typings.Proofs.Walk
import Typings.Proofs.Within
import Typings.Proofs.World
import Typings.Proofs.Writer
import Typings.Registry
import Typings.Resolution
import Typings.Run
import Typings.Schema
import Typings.Settings
import Typings.Source
import Typings.Table
import Typings.Text.Base64
import Typings.Text.Blank
import Typings.Text.CodePoint
import Typings.Text.Decomposition
import Typings.Text.Decomposition.Data
import Typings.Text.Digit
import Typings.Text.Line
import Typings.Text.Percent
import Typings.Text.Printable
import Typings.Text.Quoted
import Typings.Text.Utf8
import Typings.Toml.Reader
import Typings.Toml.Table
import Typings.Url.Host
import Typings.Url.Join
import Typings.Url.Parts
import Typings.Web
import Typings.Writer
import Typings.Writer.Script
import Typings.Yaml.Cursor
import Typings.Yaml.Fault
import Typings.Yaml.Numeral
import Typings.Yaml.Scalar
import Typings.Yaml.Tag
import Typings.Yaml.Timestamp
import Typings.Yaml.Token
import Typings.Yaml.Token.Lexer
import Typings.Yaml.Tree
import Typings.Yaml.Value
