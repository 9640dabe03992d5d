import DocAudit.Audit.Diagnostic
import DocAudit.Audit.Report
import DocAudit.Audit.Result
import DocAudit.Audit.Run
import DocAudit.Audit.RunId
import DocAudit.Command.Catalog
import DocAudit.Command.Flag
import DocAudit.Command.Page
import DocAudit.Command.Program
import DocAudit.Command.Suggest
import DocAudit.Config.Basic
import DocAudit.Config.Decode
import DocAudit.Config.Dotenv
import DocAudit.Config.Encode
import DocAudit.Config.Load
import DocAudit.Config.Schema
import DocAudit.Config.Validate
import DocAudit.Data
import DocAudit.Data.Json
import DocAudit.Data.Output
import DocAudit.Data.Table
import DocAudit.Decimal.Binary64
import DocAudit.Decimal.Power
import DocAudit.Element
import DocAudit.Error
import DocAudit.Files.Path
import DocAudit.Files.Project
import DocAudit.Files.Settings
import DocAudit.Files.Textfile
import DocAudit.Files.Tree
import DocAudit.Inventory
import DocAudit.Inventory.OfPackage
import DocAudit.Log
import DocAudit.Main
import DocAudit.Metrics
import DocAudit.Pattern.Cache
import DocAudit.Pattern.CharClass
import DocAudit.Pattern.Reader
import DocAudit.Pattern.Regex
import DocAudit.Pattern.Set
import DocAudit.Policy.Compile
import DocAudit.Policy.Memo
import DocAudit.Policy.Resolve
import DocAudit.Policy.Selector
import DocAudit.Proofs.Audit.Agreement
import DocAudit.Proofs.Audit.Bookkeeping
import DocAudit.Proofs.Audit.Counts
import DocAudit.Proofs.Audit.Failure
import DocAudit.Proofs.Audit.Order
import DocAudit.Proofs.Audit.Positions
import DocAudit.Proofs.Audit.Result
import DocAudit.Proofs.Audit.Severities
import DocAudit.Proofs.Command.Verdict
import DocAudit.Proofs.Config.Keys
import DocAudit.Proofs.Config.Overlay
import DocAudit.Proofs.Config.Reread
import DocAudit.Proofs.Config.Settled
import DocAudit.Proofs.Config.Validate
import DocAudit.Proofs.Config.Violations
import DocAudit.Proofs.Decimal.Nearest
import DocAudit.Proofs.Decimal.Shortest
import DocAudit.Proofs.Distinct
import DocAudit.Proofs.Error
import DocAudit.Proofs.Except
import DocAudit.Proofs.Files.Clean
import DocAudit.Proofs.Files.Collect
import DocAudit.Proofs.Files.Flat
import DocAudit.Proofs.Files.Links
import DocAudit.Proofs.Files.Nested
import DocAudit.Proofs.Files.Packages
import DocAudit.Proofs.Files.Path
import DocAudit.Proofs.Files.Scan
import DocAudit.Proofs.Files.Settings
import DocAudit.Proofs.Files.Sources
import DocAudit.Proofs.Files.Tree
import DocAudit.Proofs.Files.Walk
import DocAudit.Proofs.Group
import DocAudit.Proofs.Inventory.Blank
import DocAudit.Proofs.Inventory.Complete
import DocAudit.Proofs.Inventory.Constructors
import DocAudit.Proofs.Inventory.Described
import DocAudit.Proofs.Inventory.FileOrder
import DocAudit.Proofs.Inventory.Index
import DocAudit.Proofs.Inventory.Keys
import DocAudit.Proofs.Inventory.Located
import DocAudit.Proofs.Inventory.Merge
import DocAudit.Proofs.Inventory.Monoid
import DocAudit.Proofs.Inventory.Owners
import DocAudit.Proofs.Inventory.Promoted
import DocAudit.Proofs.Inventory.Scope
import DocAudit.Proofs.Pattern.Accepted
import DocAudit.Proofs.Pattern.Anchored
import DocAudit.Proofs.Pattern.Cache
import DocAudit.Proofs.Pattern.Constructs
import DocAudit.Proofs.Pattern.Match
import DocAudit.Proofs.Pattern.Reading
import DocAudit.Proofs.Pattern.Set
import DocAudit.Proofs.Pattern.Unmarked
import DocAudit.Proofs.Pattern.Whole
import DocAudit.Proofs.Policy.Compile
import DocAudit.Proofs.Policy.Decision
import DocAudit.Proofs.Policy.Exact
import DocAudit.Proofs.Policy.Memo
import DocAudit.Proofs.Policy.Occurrence
import DocAudit.Proofs.Policy.Precedence
import DocAudit.Proofs.Policy.Scale
import DocAudit.Proofs.Rule.Articles
import DocAudit.Proofs.Rule.Beginning
import DocAudit.Proofs.Rule.Local
import DocAudit.Proofs.Rule.Registry
import DocAudit.Proofs.Severity
import DocAudit.Proofs.Source.Accessor
import DocAudit.Proofs.Source.Directive
import DocAudit.Proofs.Source.Draws
import DocAudit.Proofs.Source.Embedded
import DocAudit.Proofs.Source.Forward
import DocAudit.Proofs.Source.Lexed
import DocAudit.Proofs.Source.Placed
import DocAudit.Proofs.Source.Visibility
import DocAudit.Proofs.StableSort
import DocAudit.Proofs.Text.Blank
import DocAudit.Proofs.Text.ByteOrder
import DocAudit.Proofs.Text.Split
import DocAudit.Proofs.Text.Words
import DocAudit.Proofs.Yaml.Decode
import DocAudit.Proofs.Yaml.Intake
import DocAudit.Proofs.Yaml.Merged
import DocAudit.Proofs.Yaml.Number
import DocAudit.Proofs.Yaml.Overlay
import DocAudit.Proofs.Yaml.Quoting
import DocAudit.Proofs.Yaml.Scalar
import DocAudit.Proofs.Yaml.Spot
import DocAudit.Proofs.Yaml.WellFormed
import DocAudit.Proofs.Yaml.Words
import DocAudit.Rule
import DocAudit.Rule.DocNamePrefix
import DocAudit.Rule.DocPresence
import DocAudit.Rule.Registry
import DocAudit.Severity
import DocAudit.Source.Accessor
import DocAudit.Source.Annotation
import DocAudit.Source.Comment
import DocAudit.Source.Grammar.Reader
import DocAudit.Source.Grammar.Rules
import DocAudit.Source.Package
import DocAudit.Source.Position
import DocAudit.Source.Signature
import DocAudit.Source.Syntax
import DocAudit.Source.Token
import DocAudit.Text.Base64
import DocAudit.Text.Blank
import DocAudit.Text.Case
import DocAudit.Text.Category
import DocAudit.Text.CharTable
import DocAudit.Text.Quoted
import DocAudit.Text.Script
import DocAudit.Text.Split
import DocAudit.Text.Utf8
import DocAudit.Trace
import DocAudit.Yaml.Cell
import DocAudit.Yaml.Comment
import DocAudit.Yaml.Data
import DocAudit.Yaml.Decode
import DocAudit.Yaml.Document
import DocAudit.Yaml.Lexeme
import DocAudit.Yaml.Moment
import DocAudit.Yaml.Node
import DocAudit.Yaml.Page
import DocAudit.Yaml.Scalar
import DocAudit.Yaml.Style
import DocAudit.Yaml.Token
import DocAudit.Yaml.Write
