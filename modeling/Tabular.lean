import Tabular.Binary64.Basic
import Tabular.Binary64.Numeral
import Tabular.Binary64.Shortest
import Tabular.Calendar.Date
import Tabular.Calendar.Moment
import Tabular.Calendar.Span
import Tabular.Calendar.Text
import Tabular.Compile.Basic
import Tabular.Compile.Fragment
import Tabular.Database.Affinity
import Tabular.Database.Check
import Tabular.Database.Choice
import Tabular.Database.Comparison
import Tabular.Database.Conjunct
import Tabular.Database.Constraint
import Tabular.Database.Create
import Tabular.Database.Directory
import Tabular.Database.Eval
import Tabular.Database.Execute
import Tabular.Database.Found
import Tabular.Database.Function
import Tabular.Database.Numeric
import Tabular.Database.Order
import Tabular.Database.Path
import Tabular.Database.Plan
import Tabular.Database.Reference
import Tabular.Database.Select
import Tabular.Database.Selection
import Tabular.Database.Table
import Tabular.Decimal
import Tabular.Expr.Basic
import Tabular.Expr.Printer
import Tabular.Fault
import Tabular.Kind
import Tabular.Proofs.Binary64.Whole
import Tabular.Proofs.Calendar.Date
import Tabular.Proofs.Calendar.Moment
import Tabular.Proofs.Calendar.Span
import Tabular.Proofs.Calendar.Text
import Tabular.Proofs.Calendar.Ticks
import Tabular.Proofs.Compile.Balancing
import Tabular.Proofs.Compile.Brackets
import Tabular.Proofs.Compile.CallNegation
import Tabular.Proofs.Compile.Carried
import Tabular.Proofs.Compile.Chaining
import Tabular.Proofs.Compile.Clause
import Tabular.Proofs.Compile.Ending
import Tabular.Proofs.Compile.Equality
import Tabular.Proofs.Compile.Framing
import Tabular.Proofs.Compile.Functions
import Tabular.Proofs.Compile.Grouping
import Tabular.Proofs.Compile.Inversion
import Tabular.Proofs.Compile.Membership
import Tabular.Proofs.Compile.Naming
import Tabular.Proofs.Compile.Negating
import Tabular.Proofs.Compile.Nulls
import Tabular.Proofs.Compile.Parsing
import Tabular.Proofs.Compile.Parts
import Tabular.Proofs.Compile.Placeholders
import Tabular.Proofs.Compile.Shape
import Tabular.Proofs.Compile.Support
import Tabular.Proofs.Compile.Testing
import Tabular.Proofs.Compile.Tokens
import Tabular.Proofs.Compile.Uncasting
import Tabular.Proofs.Database.Conjunction
import Tabular.Proofs.Database.Content
import Tabular.Proofs.Database.Creating
import Tabular.Proofs.Database.Equality
import Tabular.Proofs.Database.Keys
import Tabular.Proofs.Database.Membership
import Tabular.Proofs.Database.Negation
import Tabular.Proofs.Database.Numbering
import Tabular.Proofs.Database.Order
import Tabular.Proofs.Database.Paging
import Tabular.Proofs.Database.Pattern
import Tabular.Proofs.Database.Referring
import Tabular.Proofs.Database.Selection
import Tabular.Proofs.Database.Single
import Tabular.Proofs.Decimal
import Tabular.Proofs.Except
import Tabular.Proofs.Query.Assembly
import Tabular.Proofs.Query.Building
import Tabular.Proofs.Query.Equality
import Tabular.Proofs.Query.Filtering
import Tabular.Proofs.Query.Naming
import Tabular.Proofs.Query.Paging
import Tabular.Proofs.Query.Parsing
import Tabular.Proofs.Query.Shape
import Tabular.Proofs.Query.Support
import Tabular.Proofs.Schema.Addressing
import Tabular.Proofs.Schema.Caching
import Tabular.Proofs.Schema.Declaring
import Tabular.Proofs.Schema.Drafting
import Tabular.Proofs.Schema.Filling
import Tabular.Proofs.Schema.Grouping
import Tabular.Proofs.Schema.Keying
import Tabular.Proofs.Schema.Listing
import Tabular.Proofs.Schema.Making
import Tabular.Proofs.Schema.Matching
import Tabular.Proofs.Schema.Naming
import Tabular.Proofs.Schema.Pairing
import Tabular.Proofs.Schema.Quoting
import Tabular.Proofs.Schema.Resolving
import Tabular.Proofs.Session.Access
import Tabular.Proofs.Session.Addressing
import Tabular.Proofs.Session.Containment
import Tabular.Proofs.Session.Counting
import Tabular.Proofs.Session.Creating
import Tabular.Proofs.Session.Deleting
import Tabular.Proofs.Session.Effects
import Tabular.Proofs.Session.Equality
import Tabular.Proofs.Session.Finding
import Tabular.Proofs.Session.Indexing
import Tabular.Proofs.Session.Inserting
import Tabular.Proofs.Session.Paging
import Tabular.Proofs.Session.Reading
import Tabular.Proofs.Session.Slicing
import Tabular.Proofs.Session.Streaming
import Tabular.Proofs.Sql.Conjunction
import Tabular.Proofs.Sql.Declaration
import Tabular.Proofs.Sql.Ending
import Tabular.Proofs.Sql.Lexing
import Tabular.Proofs.Sql.Marked
import Tabular.Proofs.Sql.Naming
import Tabular.Proofs.Sql.Pieces
import Tabular.Proofs.Sql.Selecting
import Tabular.Proofs.Text.Blank
import Tabular.Proofs.Text.Delimited
import Tabular.Proofs.Text.Ending
import Tabular.Proofs.Text.Occurrence
import Tabular.Proofs.Text.Replace
import Tabular.Proofs.Value.Captured
import Tabular.Proofs.Value.Casting
import Tabular.Proofs.Value.Shape
import Tabular.Proofs.Value.Typing
import Tabular.Query
import Tabular.Schema.Cache
import Tabular.Schema.Index
import Tabular.Schema.Mapping
import Tabular.Schema.Provider
import Tabular.Schema.RecordType
import Tabular.Schema.Statement
import Tabular.Schema.Storage
import Tabular.Session.Basic
import Tabular.Session.Cursor
import Tabular.Session.Decode
import Tabular.Session.Description
import Tabular.Session.Failure
import Tabular.Session.Operation
import Tabular.Session.Rows
import Tabular.Sql.Command
import Tabular.Sql.Term
import Tabular.Sql.Token
import Tabular.Text.Basic
import Tabular.Text.Delimited
import Tabular.Text.Lowercase
import Tabular.Text.Unprintable
import Tabular.Value.Basic
import Tabular.Value.Conversion
import Tabular.Value.Datum
