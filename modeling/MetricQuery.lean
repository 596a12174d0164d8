import MetricQuery.Calendar.Date
import MetricQuery.Calendar.Moment
import MetricQuery.Calendar.Rfc3339
import MetricQuery.Client.Basic
import MetricQuery.Client.Exchange
import MetricQuery.Client.Url
import MetricQuery.Duration.Basic
import MetricQuery.Duration.Reader
import MetricQuery.Error
import MetricQuery.Expression
import MetricQuery.Expression.Aggregation
import MetricQuery.Expression.Binary
import MetricQuery.Expression.Function
import MetricQuery.Json.Basic
import MetricQuery.Json.Reader
import MetricQuery.Json.Token
import MetricQuery.Keyed
import MetricQuery.Log
import MetricQuery.Number.Binary64
import MetricQuery.Number.Decimal
import MetricQuery.Number.Power
import MetricQuery.Number.Shortest
import MetricQuery.Query.Basic
import MetricQuery.Query.Builder
import MetricQuery.Query.Decode
import MetricQuery.Query.Draft
import MetricQuery.Response.Basic
import MetricQuery.Response.Decode
import MetricQuery.Response.ServerError
import MetricQuery.Schema.Container
import MetricQuery.Schema.Library
import MetricQuery.Schema.Problem
import MetricQuery.Schema.Scalar
import MetricQuery.Selector.Basic
import MetricQuery.Selector.Step
import MetricQuery.Settings
import MetricQuery.Text.Blank
import MetricQuery.Text.Digit
import MetricQuery.Text.Display
import MetricQuery.Text.Printable
import MetricQuery.Text.Quoted
import MetricQuery.Timestamp
import MetricQuery.Value.Basic
import MetricQuery.Value.Number
import MetricQuery.Vector.Basic
import MetricQuery.Vector.Clause
import MetricQuery.Proofs.Phrase.Basic
import MetricQuery.Proofs.Phrase.Reader
import MetricQuery.Proofs.Phrase.Tokens
import MetricQuery.Proofs.Phrase.RoundTrip
import MetricQuery.Proofs.Number.Numeral
import MetricQuery.Proofs.Outcome
import MetricQuery.Proofs.Phrase.Outline
import MetricQuery.Proofs.Phrase.Denotation
import MetricQuery.Proofs.Phrase.UniqueReading
import MetricQuery.Proofs.Duration.Piece
import MetricQuery.Proofs.Duration.Sort
import MetricQuery.Proofs.Duration.Grammar
import MetricQuery.Proofs.Calendar.Civil
import MetricQuery.Proofs.Duration.RoundTrip
import MetricQuery.Proofs.Duration.Canonical
import MetricQuery.Proofs.Calendar.Form
import MetricQuery.Proofs.Calendar.Instant
import MetricQuery.Proofs.Calendar.Canonical
import MetricQuery.Proofs.Schema.Checked
import MetricQuery.Proofs.Query.Run
import MetricQuery.Proofs.Query.Build
import MetricQuery.Proofs.Query.History
import MetricQuery.Proofs.Query.Interleaving
import MetricQuery.Proofs.Query.Contract
import MetricQuery.Proofs.Client.Exchange
import MetricQuery.Proofs.Client.Form
import MetricQuery.Proofs.Keyed
import MetricQuery.Proofs.Query.Params
import MetricQuery.Proofs.Client.Address
import MetricQuery.Proofs.Client.Sending
import MetricQuery.Proofs.Schema.Agreement
import MetricQuery.Proofs.Schema.Container
import MetricQuery.Proofs.Schema.Lawful
import MetricQuery.Proofs.Schema.Library
import MetricQuery.Proofs.Response.Agreement
import MetricQuery.Proofs.Response.Decode
import MetricQuery.Proofs.Response.Document
import MetricQuery.Proofs.Response.Faithful
import MetricQuery.Proofs.Schema.Part
import MetricQuery.Proofs.Response.Modes
import MetricQuery.Proofs.Response.Parts
import MetricQuery.Proofs.Response.Strict
import MetricQuery.Proofs.Number.Range
import MetricQuery.Proofs.Query.Raised
import MetricQuery.Proofs.Query.Selection
import MetricQuery.Proofs.Expression.Kinds
import MetricQuery.Proofs.Expression.Windows
import MetricQuery.Proofs.Text.Blank
import MetricQuery.Proofs.Number.Rounding
import MetricQuery.Proofs.Number.Value
import MetricQuery.Proofs.Number.Shortest
import MetricQuery.Proofs.Number.Form
import MetricQuery.Proofs.Number.Layout
import MetricQuery.Proofs.Timestamp.Seconds
import MetricQuery.Proofs.Timestamp.Acceptance
import MetricQuery.Proofs.Timestamp.Stability
import MetricQuery.Proofs.Timestamp.Numeric
import MetricQuery.Proofs.Text.Literals
import MetricQuery.Proofs.Timestamp.Moment
import MetricQuery.Proofs.Client.Configured
import MetricQuery.Proofs.Expression.Context
import MetricQuery.Proofs.Client.Timeout
import MetricQuery.Proofs.Expression.Clauses
