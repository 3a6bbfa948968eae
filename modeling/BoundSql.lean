import BoundSql.Number.Shortest
import BoundSql.Text.Blank
import BoundSql.Text.Cut
import BoundSql.Calendar
import BoundSql.Json
import BoundSql.Error
import BoundSql.Value
import BoundSql.Parameters.Lemmas
import BoundSql.Command
import BoundSql.Writer.Operation
import BoundSql.Statement
import BoundSql.Table.Document
import BoundSql.Parameters.Sharing
import BoundSql.Parameters.Edit
import BoundSql.Parameters.Copies
import BoundSql.Catalog
import BoundSql.Catalog.Request
import BoundSql.Dialect.Config
import BoundSql.Declaration.Lexer
import BoundSql.Declaration
import BoundSql.Catalog.Samples
import BoundSql.Proofs.Execution
import BoundSql.Proofs.Operand
import BoundSql.Proofs.Growth
import BoundSql.Proofs.Text.Cut
import BoundSql.Proofs.Excerpt
import BoundSql.Proofs.RawStep
import BoundSql.Proofs.Pairing
import BoundSql.Proofs.Noninterference
import BoundSql.Proofs.Regrouping
import BoundSql.Proofs.Isolation
import BoundSql.Proofs.Condition.Token
import BoundSql.Proofs.Condition.Truth
import BoundSql.Proofs.Condition.Grammar
import BoundSql.Proofs.Condition.Meaning
import BoundSql.Proofs.Parameters.Pairs
import BoundSql.Proofs.Parameters.History
import BoundSql.Proofs.Parameters.Values
import BoundSql.Proofs.Parameters.Copies
import BoundSql.Proofs.Composition
import BoundSql.Proofs.Outline
import BoundSql.Proofs.Visibility
import BoundSql.Proofs.Draft
import BoundSql.Proofs.Placeholders
import BoundSql.Proofs.Chunks
import BoundSql.Proofs.Numbering
import BoundSql.Proofs.Membership
import BoundSql.Proofs.FirstFailure
import BoundSql.Proofs.Assignments
import BoundSql.Proofs.Collision
import BoundSql.Proofs.Calls
import BoundSql.Proofs.Ordering
import BoundSql.Proofs.Reseeding
import BoundSql.Proofs.Choice
import BoundSql.Proofs.Alignment
import BoundSql.Proofs.Locality
import BoundSql.Proofs.Tally
import BoundSql.Proofs.Building
import BoundSql.Proofs.Declaration.Items
import BoundSql.Proofs.Declaration.Merging
import BoundSql.Proofs.Declaration.Description
import BoundSql.Proofs.Declaration.Spelling
import BoundSql.Proofs.Text.Reading
import BoundSql.Proofs.Json.Token
import BoundSql.Proofs.Json.Document
import BoundSql.Proofs.Json.Number
import BoundSql.Proofs.Json.Writing
import BoundSql.Proofs.Json.Members
import BoundSql.Proofs.Dialect.Config
import BoundSql.Proofs.Parameters.Document
import BoundSql.Proofs.Catalog
