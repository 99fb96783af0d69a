import RequestQuery.Catalog
import RequestQuery.Decimal.Binary64
import RequestQuery.Decimal.Shortest
import RequestQuery.Decimal.Whole
import RequestQuery.Duration
import RequestQuery.Failure
import RequestQuery.Json.Number
import RequestQuery.Json.Printer
import RequestQuery.Json.Reader
import RequestQuery.Json.Value
import RequestQuery.Limits
import RequestQuery.Ordered
import RequestQuery.Parameter
import RequestQuery.Plan.Basic
import RequestQuery.Plan.Compile
import RequestQuery.Plan.MatchKey
import RequestQuery.Plan.Run
import RequestQuery.Plan.Statement
import RequestQuery.Predicate
import RequestQuery.Proofs.Json.Number
import RequestQuery.Proofs.Ordered
import RequestQuery.Proofs.Outcome
import RequestQuery.Proofs.Parameter
import RequestQuery.Proofs.Plan.BoundKeys
import RequestQuery.Proofs.Plan.Locality
import RequestQuery.Proofs.Plan.NestedLoads
import RequestQuery.Proofs.Plan.NestedLoop
import RequestQuery.Proofs.Plan.OneLoad
import RequestQuery.Proofs.Plan.Names
import RequestQuery.Proofs.Plan.Qualifiers
import RequestQuery.Proofs.Plan.Resolution
import RequestQuery.Proofs.Plan.RootStatement
import RequestQuery.Proofs.Repository.SoftDeletion
import RequestQuery.Proofs.Request.Canonical
import RequestQuery.Proofs.Session
import RequestQuery.Proofs.Sql.Grammar
import RequestQuery.Proofs.Sql.Lexing
import RequestQuery.Proofs.Sql.Quoting
import RequestQuery.Proofs.Sql.Scoping
import RequestQuery.Proofs.Sql.Sources
import RequestQuery.Proofs.Text.Canonical
import RequestQuery.Record
import RequestQuery.Repository.Basic
import RequestQuery.Repository.Statement
import RequestQuery.Request.Entry
import RequestQuery.Request.Existence
import RequestQuery.Request.FieldList
import RequestQuery.Request.Filters
import RequestQuery.Request.Load
import RequestQuery.Request.Query
import RequestQuery.Session
import RequestQuery.Settings.Basic
import RequestQuery.Settings.Document
import RequestQuery.Settings.Expansion
import RequestQuery.Settings.Logging
import RequestQuery.SortOrder
import RequestQuery.Sql.Condition
import RequestQuery.Sql.Name
import RequestQuery.Sql.Statement
import RequestQuery.Sql.Token
import RequestQuery.Store.Cell
import RequestQuery.Store.Connect
import RequestQuery.Store.Database
import RequestQuery.Store.Fault
import RequestQuery.Store.Pool
import RequestQuery.Text.Blank
import RequestQuery.Text.Case
import RequestQuery.Text.Quoted
import RequestQuery.Text.Utf8
import RequestQuery.Toml.Decode
import RequestQuery.Toml.Document
import RequestQuery.Toml.Number
import RequestQuery.Toml.Reader
import RequestQuery.Toml.Report
import RequestQuery.Toml.Scan
import RequestQuery.Toml.Text
import RequestQuery.Proofs.Store.Holders
import RequestQuery.Proofs.Store.Conservation
import RequestQuery.Proofs.Plan.Acceptance
import RequestQuery.Proofs.Sql.Values
import RequestQuery.Proofs.Plan.Values
import RequestQuery.Proofs.Plan.Conversation
import RequestQuery.Proofs.Settings.Substitution
import RequestQuery.Proofs.Plan.LoadCount
import RequestQuery.Proofs.Store.Sharing
import RequestQuery.Proofs.Repository.Update
import RequestQuery.Proofs.Repository.Steps
import RequestQuery.Proofs.Repository.Filling
import RequestQuery.Proofs.Repository.Creation
import RequestQuery.Proofs.Plan.Merging
import RequestQuery.Proofs.Repository.Visibility
import RequestQuery.Proofs.Repository.Addressing
import RequestQuery.Proofs.Repository.UpdateConversation
import RequestQuery.Proofs.Plan.HelperColumns
import RequestQuery.Proofs.Sql.Predicates
import RequestQuery.Proofs.Decimal.Binary64
import RequestQuery.Proofs.Decimal.Shortest
import RequestQuery.Proofs.Decimal.Text
import RequestQuery.Proofs.Plan.MatchKey
import RequestQuery.Proofs.Request.Directives
import RequestQuery.Proofs.Request.FieldList
import RequestQuery.Proofs.Record
import RequestQuery.Proofs.Json.Rounding
import RequestQuery.Proofs.Conversion
import RequestQuery.Proofs.Text.Utf8
import RequestQuery.Proofs.Text.Splitting
import RequestQuery.Proofs.Json.Reading
import RequestQuery.Proofs.Json.RoundTrip
import RequestQuery.Proofs.Store.Documents
import RequestQuery.Proofs.Sql.Delimiting
