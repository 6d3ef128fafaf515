import StrategyGraph.Backtest.Code
import StrategyGraph.Backtest.Computation
import StrategyGraph.Backtest.Script
import StrategyGraph.Command.Effect
import StrategyGraph.Command.Execution
import StrategyGraph.Command.FileStore
import StrategyGraph.Command.Invocation
import StrategyGraph.Command.Path
import StrategyGraph.Command.Procedure
import StrategyGraph.Compile.Compilation
import StrategyGraph.Compile.Condition
import StrategyGraph.Compile.Signal
import StrategyGraph.Compile.Warning
import StrategyGraph.Configuration
import StrategyGraph.Data.Csv
import StrategyGraph.Data.Datum
import StrategyGraph.Data.Dictionary
import StrategyGraph.Data.Fields
import StrategyGraph.Data.Json.Extent
import StrategyGraph.Data.Json.Reader
import StrategyGraph.Data.Json.Token
import StrategyGraph.Data.Json.Writer
import StrategyGraph.Data.Toml.Moment
import StrategyGraph.Data.Toml.Reader
import StrategyGraph.Data.Toml.Scalar
import StrategyGraph.Data.Toml.Table
import StrategyGraph.Digest.Blake3
import StrategyGraph.Graph.Basic
import StrategyGraph.Graph.Datum
import StrategyGraph.Graph.Fault
import StrategyGraph.Graph.Flow
import StrategyGraph.Graph.Node
import StrategyGraph.Graph.Validation
import StrategyGraph.Indicator.Catalog
import StrategyGraph.Indicator.Resolution
import StrategyGraph.Indicator.Series
import StrategyGraph.Main
import StrategyGraph.Market.Bar
import StrategyGraph.Market.Calendar
import StrategyGraph.Market.Column
import StrategyGraph.Market.History
import StrategyGraph.Market.SeriesSet
import StrategyGraph.Number.Binary64
import StrategyGraph.Number.Decimal
import StrategyGraph.Number.Quantity
import StrategyGraph.Number.Rounding
import StrategyGraph.Number.Shortest
import StrategyGraph.Number.Text
import StrategyGraph.Proofs.Command.Acceptance
import StrategyGraph.Proofs.Command.Delivery
import StrategyGraph.Proofs.Command.FileStore
import StrategyGraph.Proofs.Command.Path
import StrategyGraph.Proofs.Compile.Accepted
import StrategyGraph.Proofs.Compile.Correspondence
import StrategyGraph.Proofs.Compile.Crossing
import StrategyGraph.Proofs.Compile.Distinct
import StrategyGraph.Proofs.Compile.Meaning
import StrategyGraph.Proofs.Compile.Parameters
import StrategyGraph.Proofs.Compile.Ranges
import StrategyGraph.Proofs.Compile.Removal
import StrategyGraph.Proofs.Compile.Rendering
import StrategyGraph.Proofs.Compile.Reordering
import StrategyGraph.Proofs.Compile.Requirements
import StrategyGraph.Proofs.Compile.Series
import StrategyGraph.Proofs.Compile.Shape
import StrategyGraph.Proofs.Compile.Sound
import StrategyGraph.Proofs.Compile.Tests
import StrategyGraph.Proofs.Compile.Totality
import StrategyGraph.Proofs.Compile.Unfolding
import StrategyGraph.Proofs.Compile.Warnings
import StrategyGraph.Proofs.Compile.Window
import StrategyGraph.Proofs.Data.Datum
import StrategyGraph.Proofs.Data.Dictionary
import StrategyGraph.Proofs.Data.Json.Finite
import StrategyGraph.Proofs.Data.Json.Number
import StrategyGraph.Proofs.Data.Json.Text
import StrategyGraph.Proofs.Data.Json.Value
import StrategyGraph.Proofs.Data.Restoring
import StrategyGraph.Proofs.Graph.Cycle
import StrategyGraph.Proofs.Graph.Parameters
import StrategyGraph.Proofs.Graph.Precedence
import StrategyGraph.Proofs.Graph.Reachability
import StrategyGraph.Proofs.Graph.Removal
import StrategyGraph.Proofs.Graph.Restoring
import StrategyGraph.Proofs.Graph.RoundTrip
import StrategyGraph.Proofs.Graph.Search
import StrategyGraph.Proofs.Graph.Visit
import StrategyGraph.Proofs.Graph.WellFormed
import StrategyGraph.Proofs.Indicator.Complete
import StrategyGraph.Proofs.Indicator.Key
import StrategyGraph.Proofs.Market.Columns
import StrategyGraph.Proofs.Market.Faults
import StrategyGraph.Proofs.Market.Insertion
import StrategyGraph.Proofs.Market.Prefix
import StrategyGraph.Proofs.Market.Reading
import StrategyGraph.Proofs.Market.Replayable
import StrategyGraph.Proofs.Number.Digits
import StrategyGraph.Proofs.Number.Display
import StrategyGraph.Proofs.Number.Division
import StrategyGraph.Proofs.Number.Floor
import StrategyGraph.Proofs.Number.Magnitude
import StrategyGraph.Proofs.Number.Nearest
import StrategyGraph.Proofs.Number.Shortest
import StrategyGraph.Proofs.Number.Special
import StrategyGraph.Proofs.Number.Whole
import StrategyGraph.Proofs.Outcome
import StrategyGraph.Proofs.Predicate.Legible
import StrategyGraph.Proofs.Predicate.Truth
import StrategyGraph.Proofs.Predicate.Wording
import StrategyGraph.Proofs.Run.Availability
import StrategyGraph.Proofs.Run.Causality
import StrategyGraph.Proofs.Run.Coverage
import StrategyGraph.Proofs.Run.InfiniteClose
import StrategyGraph.Proofs.Run.Lifecycle
import StrategyGraph.Proofs.Run.MissingRange
import StrategyGraph.Proofs.Run.Opening
import StrategyGraph.Proofs.Run.Reordering
import StrategyGraph.Proofs.Run.Trailing
import StrategyGraph.Proofs.Run.Waiting
import StrategyGraph.Proofs.Script.Action
import StrategyGraph.Proofs.Script.Check
import StrategyGraph.Proofs.Script.Effects
import StrategyGraph.Proofs.Script.Indifference
import StrategyGraph.Proofs.Script.Order
import StrategyGraph.Proofs.Script.RiskExit
import StrategyGraph.Proofs.Script.Run
import StrategyGraph.Proofs.Script.Support
import StrategyGraph.Proofs.Strategy.Finite
import StrategyGraph.Proofs.Strategy.Restoring
import StrategyGraph.Proofs.Strategy.RoundTrip
import StrategyGraph.Proofs.Text.Quoted
import StrategyGraph.Report
import StrategyGraph.Run.Decision
import StrategyGraph.Run.Evaluation
import StrategyGraph.Run.ExitState
import StrategyGraph.Run.Session
import StrategyGraph.Run.Sizing
import StrategyGraph.Strategy.ActionRule
import StrategyGraph.Strategy.Basic
import StrategyGraph.Strategy.Datum
import StrategyGraph.Strategy.ExitRule
import StrategyGraph.Strategy.Expression
import StrategyGraph.Strategy.Predicate
import StrategyGraph.Text.Blank
import StrategyGraph.Text.Quoted
import StrategyGraph.Text.Visible
