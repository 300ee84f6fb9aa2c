import RecordQuery.Archive.Decode
import RecordQuery.Archive.Encode
import RecordQuery.Calendar.Date
import RecordQuery.Calendar.Pattern
import RecordQuery.Coercion
import RecordQuery.CommandLine.Command
import RecordQuery.CommandLine.Help
import RecordQuery.CommandLine.Options
import RecordQuery.CommandLine.Report
import RecordQuery.Condition.Basic
import RecordQuery.Condition.Render
import RecordQuery.Connection
import RecordQuery.DataType
import RecordQuery.Decimal.Layout
import RecordQuery.Decimal.Shortest
import RecordQuery.Dialect
import RecordQuery.Dialect.Quoting
import RecordQuery.Entries
import RecordQuery.Expr.Basic
import RecordQuery.Expr.Eval
import RecordQuery.Expr.OfTokens
import RecordQuery.Expr.Render
import RecordQuery.Fault
import RecordQuery.Format.Interpolation
import RecordQuery.Format.Lexeme
import RecordQuery.Format.Token
import RecordQuery.Json.Basic
import RecordQuery.Json.Number
import RecordQuery.Json.Printer
import RecordQuery.Json.Reader
import RecordQuery.Like
import RecordQuery.Main
import RecordQuery.Model
import RecordQuery.Numeric.Binary64
import RecordQuery.Operator
import RecordQuery.Row.Gather
import RecordQuery.Selection.Basic
import RecordQuery.Selection.Refine
import RecordQuery.Settings
import RecordQuery.Sorting
import RecordQuery.Statement.Clauses
import RecordQuery.Statement.Insert
import RecordQuery.Statement.Mutation
import RecordQuery.Statement.Select
import RecordQuery.Store.Basic
import RecordQuery.Store.Joined
import RecordQuery.Store.Read
import RecordQuery.Store.Write
import RecordQuery.Text.Blank
import RecordQuery.Text.Boundaries
import RecordQuery.Text.Bytes
import RecordQuery.Text.Numeral
import RecordQuery.Text.Pieces
import RecordQuery.Text.Printable
import RecordQuery.Text.Quoted
import RecordQuery.Text.WordChar
import RecordQuery.Toml.Basic
import RecordQuery.Toml.Reader
import RecordQuery.Toml.Scalar
import RecordQuery.Toml.Text
import RecordQuery.Value.Basic
import RecordQuery.Value.Compare
import RecordQuery.Value.Json
import RecordQuery.Value.Text
import RecordQuery.Proofs.Expr.Grammar
import RecordQuery.Proofs.Expr.Reading
import RecordQuery.Proofs.Format.Tokens
import RecordQuery.Proofs.Entries
import RecordQuery.Proofs.Store.Stored
import RecordQuery.Proofs.Store.Keys
import RecordQuery.Proofs.Store.Selected
import RecordQuery.Proofs.Store.Run
import RecordQuery.Proofs.Store.Call
import RecordQuery.Proofs.Store.Batch
import RecordQuery.Proofs.Statement.GeneratedKey
import RecordQuery.Proofs.Text.Numerals
import RecordQuery.Proofs.Format.Scanning
import RecordQuery.Proofs.Format.Faults
import RecordQuery.Proofs.Format.Copied
import RecordQuery.Proofs.Format.Segments
import RecordQuery.Proofs.Format.Tiling
import RecordQuery.Proofs.Format.Spelling
import RecordQuery.Proofs.Expr.Meaning
import RecordQuery.Proofs.Format.Constants
import RecordQuery.Proofs.Expr.Rendering
import RecordQuery.Proofs.Expr.RoundTrip
import RecordQuery.Proofs.Expr.Chaining
import RecordQuery.Proofs.Expr.Grouping
import RecordQuery.Proofs.Condition.Chain
import RecordQuery.Proofs.Condition.Runs
import RecordQuery.Proofs.Condition.Sql
import RecordQuery.Proofs.Condition.Ternary
import RecordQuery.Proofs.Dialect.Lexer
import RecordQuery.Proofs.Dialect.Quoted
import RecordQuery.Proofs.Dialect.Units
import RecordQuery.Proofs.Dialect.Literals
import RecordQuery.Proofs.Dialect.Operators
import RecordQuery.Proofs.Condition.Emptiness
import RecordQuery.Proofs.Statement.Filter
import RecordQuery.Proofs.Coercion.Idempotence
import RecordQuery.Proofs.Store.Fetch
import RecordQuery.Proofs.Expr.Safety
import RecordQuery.Proofs.Expr.Alternation
import RecordQuery.Proofs.Format.Written
import RecordQuery.Proofs.Format.Operators
import RecordQuery.Proofs.Store.Assignment
import RecordQuery.Proofs.Json.Tokens
import RecordQuery.Proofs.Json.RoundTrip
import RecordQuery.Proofs.Archive.Parts
import RecordQuery.Proofs.Calendar.RoundTrip
import RecordQuery.Proofs.Archive.Values
import RecordQuery.Proofs.Archive.Conditions
import RecordQuery.Proofs.Archive.Selections
import RecordQuery.Proofs.Numeric.Rounding
import RecordQuery.Proofs.Value.Order
import RecordQuery.Proofs.Condition.Evaluation
import RecordQuery.Proofs.Store.Labels
import RecordQuery.Proofs.Store.Joining
import RecordQuery.Proofs.Store.Qualified
import RecordQuery.Proofs.Sorting
import RecordQuery.Proofs.Store.Found
import RecordQuery.Proofs.Value.Sameness
import RecordQuery.Proofs.Store.Pages
import RecordQuery.Proofs.Store.Ordering
import RecordQuery.Proofs.Store.Distinct
import RecordQuery.Proofs.Calendar.Grammar
import RecordQuery.Proofs.Coercion.Moments
import RecordQuery.Proofs.Coercion.RoundTrip
import RecordQuery.Proofs.Coercion.Dates
import RecordQuery.Proofs.Row.SubRecords
import RecordQuery.Proofs.Store.Nested
import RecordQuery.Proofs.Format.Arguments
import RecordQuery.Proofs.Format.Literals
import RecordQuery.Proofs.Like
import RecordQuery.Proofs.Store.Serial
import RecordQuery.Proofs.Expr.ListPlaceholder
import RecordQuery.Proofs.Selection.Assignments
import RecordQuery.Proofs.Value.Comparison
import RecordQuery.Proofs.Expr.Comparison
import RecordQuery.Proofs.Format.Quotation
import RecordQuery.Proofs.Row.Places
import RecordQuery.Proofs.Row.Gathered
import RecordQuery.Proofs.Row.ColumnOrder
