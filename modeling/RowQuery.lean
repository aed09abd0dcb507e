import RowQuery.Text.Pieces
import RowQuery.Text.Quoted
import RowQuery.Number.Binary64
import RowQuery.Number.Decimal.Reading
import RowQuery.Number.Decimal.Binary
import RowQuery.Calendar.Reading
import RowQuery.Json
import RowQuery.Json.Reading
import RowQuery.Value
import RowQuery.TypeCatalog
import RowQuery.Sql.Operator
import RowQuery.Calendar.Seconds
import RowQuery.Dialect
import RowQuery.Dialect.Builtin
import RowQuery.Sql.Fragment
import RowQuery.Term
import RowQuery.Value.Arithmetic
import RowQuery.Value.Part
import RowQuery.Function.Standard
import RowQuery.Lambda
import RowQuery.Table.Statements
import RowQuery.Compile
import RowQuery.Query.Write
import RowQuery.Table.Change
import RowQuery.Table.Rows
import RowQuery.View
import RowQuery.Schema.Discovery
import RowQuery.Toml.Reading
import RowQuery.Settings
import RowQuery.SchemaFile
import RowQuery.Main
import RowQuery.Proofs.Steps
import RowQuery.Proofs.Truth
import RowQuery.Proofs.Piece
import RowQuery.Proofs.Condition.Shape
import RowQuery.Proofs.Condition.Weakening
import RowQuery.Proofs.Sql.Expression
import RowQuery.Proofs.Sql.Parsing
import RowQuery.Proofs.Sql.Lexing
import RowQuery.Proofs.Sql.Reading
import RowQuery.Proofs.Sql.Quotation
import RowQuery.Proofs.Sql.LikeTest
import RowQuery.Proofs.Sql.TextExpression
import RowQuery.Proofs.Table.Declared
import RowQuery.Proofs.Table.KeyRestriction
import RowQuery.Proofs.Integral.Term
import RowQuery.Proofs.Integral.Value
import RowQuery.Proofs.Integral.Operand
import RowQuery.Proofs.Integral.Denotation
import RowQuery.Proofs.Integral.Piece
import RowQuery.Proofs.Integral.Membership
import RowQuery.Proofs.Integral.Translation
import RowQuery.Proofs.Memo.Arguments
import RowQuery.Proofs.Memo.Transparency
import RowQuery.Proofs.Query.OutputName
import RowQuery.Proofs.Query.Regrouping
import RowQuery.Proofs.Database.Refilter
import RowQuery.Proofs.Database.Running
import RowQuery.Proofs.Database.Interleaving
import RowQuery.Proofs.Table.WriteStatement
import RowQuery.Proofs.Table.BulkWrite
import RowQuery.Proofs.Table.Operation
import RowQuery.Proofs.Table.Reached
import RowQuery.Proofs.Table.WellFormed
import RowQuery.Proofs.Number.Reading
import RowQuery.Proofs.Calendar.Reading
import RowQuery.Proofs.Codec.RoundTrip
import RowQuery.Proofs.Catalog.Statement
import RowQuery.Proofs.Catalog.Regular
import RowQuery.Proofs.Catalog.InStep
import RowQuery.Proofs.Keyed
import RowQuery.Proofs.Schema.FailedOperation
import RowQuery.Proofs.Memo.Growth
import RowQuery.Proofs.Memo.Certain
import RowQuery.Proofs.Memo.SchemaChange
import RowQuery.Proofs.Kind.Value
import RowQuery.Proofs.Kind.Function
import RowQuery.Proofs.Kind.Piece
import RowQuery.Proofs.Kind.Term
import RowQuery.Proofs.Kind.Projection
import RowQuery.Proofs.Sql.Lexeme
import RowQuery.Proofs.Sql.Reach
import RowQuery.Proofs.Reach.Operation
import RowQuery.Proofs.Reach.Literal
import RowQuery.Proofs.Reach.Function
import RowQuery.Proofs.Reach.Piece
import RowQuery.Proofs.Ingredients
import RowQuery.Proofs.Reach.Term
import RowQuery.Proofs.Reach.Condition
import RowQuery.Proofs.Reach.Aggregate
import RowQuery.Proofs.Query.JoinTree
import RowQuery.Proofs.Query.FromClause
import RowQuery.Proofs.Query.ReferencePath
import RowQuery.Proofs.Calendar.Instant
import RowQuery.Proofs.Sql.DateOperand
import RowQuery.Proofs.Sql.DateSum
import RowQuery.Proofs.Sql.Collation
import RowQuery.Proofs.Sql.TextMembership
import RowQuery.Proofs.Text.Case
import RowQuery.Proofs.Sql.CaseTest
import RowQuery.Proofs.Folding.Piece
import RowQuery.Proofs.Folding.Step
import RowQuery.Proofs.Folding.Term
import RowQuery.Proofs.Filling.Value
import RowQuery.Proofs.Filling.Function
import RowQuery.Proofs.Filling.Term
import RowQuery.Proofs.Filling.Step
import RowQuery.Proofs.Filling.Answer
import RowQuery.Proofs.Degrading.Literal
import RowQuery.Proofs.Degrading.Operation
import RowQuery.Proofs.Degrading.Reached
import RowQuery.Proofs.Degrading.Term
import RowQuery.Proofs.Sql.Phrase
import RowQuery.Proofs.Spelling.Operation
import RowQuery.Proofs.Spelling.Literal
import RowQuery.Proofs.Spelling.Function
import RowQuery.Proofs.Spelling.Piece
import RowQuery.Proofs.Spelling.Expression
import RowQuery.Proofs.Types.Capacity
import RowQuery.Proofs.Types.RoundTrip
import RowQuery.Proofs.Query.LimitStyle
import RowQuery.Proofs.Sql.Statement
import RowQuery.Proofs.Sql.EmptyList
import RowQuery.Proofs.Spelling.Clause
import RowQuery.Proofs.Spelling.Statement
import RowQuery.Proofs.Grouping.Place
import RowQuery.Proofs.Grouping.Clause
import RowQuery.Proofs.Grouping.Select
import RowQuery.Proofs.Database.Acceptance
import RowQuery.Proofs.Table.Draft
import RowQuery.Proofs.Schema.Creation
import RowQuery.Proofs.Schema.Retry
import RowQuery.Proofs.Schema.ViewOrder
import RowQuery.Proofs.Schema.ReferenceTarget
import RowQuery.Proofs.Schema.GeneratedName
import RowQuery.Proofs.Logic.Connective
import RowQuery.Proofs.Logic.Comparison
import RowQuery.Proofs.Logic.Membership
import RowQuery.Proofs.Number.Division
import RowQuery.Proofs.Sql.Quotient
import RowQuery.Proofs.Sql.Remainder
import RowQuery.Proofs.Number.Rounding
import RowQuery.Proofs.Number.NearestDouble
import RowQuery.Proofs.Number.Shortest
import RowQuery.Proofs.Codec.DefaultText
import RowQuery.Proofs.Schema.Rediscovery
import RowQuery.Proofs.Sql.TableText
import RowQuery.Proofs.Table.KeyDeclaration
import RowQuery.Proofs.Table.ReservedName
import RowQuery.Proofs.Schema.Dropping
import RowQuery.Proofs.Schema.SequenceDefault
import RowQuery.Proofs.Codec.DecimalRoom
import RowQuery.Proofs.Types.DecimalRequest
import RowQuery.Proofs.Number.Product
import RowQuery.Proofs.Text.Words
import RowQuery.Proofs.Number.Numeral
import RowQuery.Proofs.Calendar.Seconds
import RowQuery.Proofs.Calendar.Component
import RowQuery.Proofs.Calendar.Grammar
import RowQuery.Proofs.Codec.IntervalRoundTrip
import RowQuery.Proofs.Memo.Recency
import RowQuery.Proofs.Settings.ConnectionString
import RowQuery.Proofs.Ordinal.Term
import RowQuery.Proofs.Ordinal.Select
import RowQuery.Proofs.Schema.DeclaredFile
import RowQuery.Proofs.Codec.Hexadecimal
