import Retrieval.Calendar
import Retrieval.Calendar.Reader
import Retrieval.CommandLine.Invocation
import Retrieval.CommandLine.Run
import Retrieval.CommandLine.Usage
import Retrieval.Configuration
import Retrieval.Disk
import Retrieval.Envelope
import Retrieval.Error
import Retrieval.Filter.Cache
import Retrieval.Filter.Coercion
import Retrieval.Filter.Compile
import Retrieval.Filter.Conversion
import Retrieval.Filter.Error
import Retrieval.Filter.Keyword
import Retrieval.Filter.Order
import Retrieval.Filter.Path
import Retrieval.Filter.Predicate
import Retrieval.Filter.Reader
import Retrieval.Filter.Test
import Retrieval.Filter.Token
import Retrieval.Filter.Writer
import Retrieval.Json
import Retrieval.Json.Compare
import Retrieval.Json.Lexeme
import Retrieval.Json.Numeral
import Retrieval.Json.Reader
import Retrieval.Json.Record
import Retrieval.Json.Writer
import Retrieval.Json.Written
import Retrieval.Link
import Retrieval.Log
import Retrieval.Main
import Retrieval.Number.Binary64
import Retrieval.Number.Decimal
import Retrieval.Number.Shortest
import Retrieval.Parameters
import Retrieval.PercentEncoding
import Retrieval.Plan
import Retrieval.Render
import Retrieval.Reply
import Retrieval.Schema.Definition
import Retrieval.Schema.Directory
import Retrieval.Schema.Graph
import Retrieval.Service
import Retrieval.Store
import Retrieval.Store.Evaluate
import Retrieval.Store.Sort
import Retrieval.Text
import Retrieval.Proofs.Number.Rounding
import Retrieval.Proofs.Json.Compare
import Retrieval.Proofs.Store.History
import Retrieval.Proofs.Store.IntegerKeys
import Retrieval.Proofs.Store.Sorting
import Retrieval.Proofs.Store.Stability
import Retrieval.Proofs.Filter.Balance
import Retrieval.Proofs.Filter.Meaning
import Retrieval.Proofs.Filter.Compilation
import Retrieval.Proofs.Filter.Path
import Retrieval.Proofs.Filter.Stack
import Retrieval.Proofs.Store.Selection
import Retrieval.Proofs.Store.Single
import Retrieval.Proofs.Filter.Piece
import Retrieval.Proofs.Filter.RoundTrip
import Retrieval.Proofs.Plan
import Retrieval.Proofs.Render.Content
import Retrieval.Proofs.Render.Depth
import Retrieval.Proofs.Plan.Walks
import Retrieval.Proofs.Store.Insertion
import Retrieval.Proofs.Store.Paths
import Retrieval.Proofs.Filter.Cache
import Retrieval.Proofs.Filter.Eviction
import Retrieval.Proofs.Filter.NormalForm
import Retrieval.Proofs.Filter.Typing
import Retrieval.Proofs.Service.Answers
import Retrieval.Proofs.Number.Integer
import Retrieval.Proofs.Link
import Retrieval.Proofs.Store.Keys
import Retrieval.Proofs.Render.Links
import Retrieval.Proofs.Service.Pages
import Retrieval.Proofs.Service.Links
import Retrieval.Proofs.Link.Reading
import Retrieval.Proofs.Service.Levels
import Retrieval.Proofs.Calendar.Alignment
import Retrieval.Proofs.Calendar.Reading
import Retrieval.Proofs.Calendar.Chronology
import Retrieval.Proofs.Schema.Consistency
import Retrieval.Proofs.Render.Undeclared
import Retrieval.Proofs.Render.Chains
import Retrieval.Proofs.Parameters
import Retrieval.Proofs.Service.Defaults
import Retrieval.Proofs.Store.Operators
import Retrieval.Proofs.Store.Inverse
import Retrieval.Proofs.Plan.Loading
import Retrieval.Proofs.Service.Agreement
import Retrieval.Proofs.Filter.Pattern
import Retrieval.Proofs.Filter.Order
import Retrieval.Proofs.Parameters.Entries
import Retrieval.Proofs.Filter.JsonForm
import Retrieval.Proofs.Text.Order
import Retrieval.Proofs.Json.Quoted
import Retrieval.Proofs.Json.Layout
import Retrieval.Proofs.Log
import Retrieval.Proofs.Schema.JsonForm
import Retrieval.Proofs.Schema.Directory
import Retrieval.Proofs.Service.Log
import Retrieval.Proofs.CommandLine.Data
import Retrieval.Proofs.CommandLine.Options
import Retrieval.Proofs.CommandLine.Run
import Retrieval.Proofs.Plan.Words
