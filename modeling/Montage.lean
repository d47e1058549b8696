import Montage.ArithmeticError
import Montage.Binary64
import Montage.Binary64.Decimal
import Montage.Caption
import Montage.Caption.Color
import Montage.Caption.Layout
import Montage.Caption.Metrics
import Montage.Caption.Wrap
import Montage.Command
import Montage.Event
import Montage.Failure
import Montage.Filter.Graph
import Montage.Filter.Numeral
import Montage.Filter.Stage
import Montage.Filter.Statement
import Montage.Font
import Montage.Inputs
import Montage.Job
import Montage.Json
import Montage.Json.Reader
import Montage.Json.Writer
import Montage.Number
import Montage.Placement
import Montage.Progress
import Montage.Render.Client
import Montage.Render.Gate
import Montage.Render.Http
import Montage.Render.Process
import Montage.Render.ScriptDirectory
import Montage.Render.Session
import Montage.Render.Stream
import Montage.Render.Studio
import Montage.Render.Supervision
import Montage.Schema.Fault
import Montage.Schema.Numeral
import Montage.Schema.Record
import Montage.Schema.Scalar
import Montage.Settings
import Montage.Table
import Montage.Text.Blank
import Montage.Text.Digit
import Montage.Text.Utf8
import Montage.Timeline
import Montage.Timeline.Document
import Montage.Timeline.Writer
import Montage.Proofs.Binary64.Order
import Montage.Proofs.Binary64.Rounding
import Montage.Proofs.Filter.Addition
import Montage.Proofs.Filter.Wiring
import Montage.Proofs.Inputs
import Montage.Proofs.Command
import Montage.Proofs.Filter.Stream
import Montage.Proofs.Job
import Montage.Proofs.Render.Studio
import Montage.Proofs.Render.Supervision
import Montage.Proofs.Render.Stream
import Montage.Proofs.Render.Chronology
import Montage.Proofs.Render.Ending
import Montage.Proofs.Render.Cleanup
import Montage.Proofs.Render.Termination
import Montage.Proofs.Render.Cancellation
import Montage.Proofs.Render.SingleFlight
import Montage.Proofs.Progress
import Montage.Proofs.Render.Undisturbed
import Montage.Proofs.Render.Percentages
import Montage.Proofs.Render.Session
import Montage.Proofs.Render.Admission
import Montage.Proofs.Text.Blank
import Montage.Proofs.Caption.Wrap
import Montage.Proofs.Caption
import Montage.Proofs.Filter.Quotation
import Montage.Proofs.Filter.Statement
import Montage.Proofs.Filter.Seal
import Montage.Proofs.Script
import Montage.Proofs.Filter.TextOption
import Montage.Proofs.Binary64.Arithmetic
import Montage.Proofs.Progress.Times
import Montage.Proofs.Progress.Pieces
import Montage.Proofs.Filter.Painting
import Montage.Proofs.Filter.Timing
import Montage.Proofs.Filter.Mixing
import Montage.Proofs.Caption.Layout
import Montage.Proofs.Filter.Decimal
import Montage.Proofs.Filter.Quantity
import Montage.Proofs.Decimals
import Montage.Proofs.Placement
import Montage.Proofs.Caption.Paragraphs
import Montage.Proofs.Caption.Greedy
import Montage.Proofs.Binary64.Bounds
import Montage.Proofs.Caption.Rewrap
import Montage.Proofs.Caption.Fitting
import Montage.Proofs.Progress.Places
import Montage.Proofs.Filter.Dependence
import Montage.Proofs.Continuation
import Montage.Proofs.Dependence
import Montage.Proofs.Text.Mention
import Montage.Proofs.Filter.Mention
import Montage.Proofs.Render.Refusal
import Montage.Proofs.Text.Utf8
import Montage.Proofs.Text.Decoder
import Montage.Proofs.Render.Process
import Montage.Proofs.Asset
import Montage.Proofs.Schema.Spelling
import Montage.Proofs.Timeline
import Montage.Proofs.Render.ScriptDirectory
import Montage.Proofs.Filter.Precision
import Montage.Proofs.Guards
