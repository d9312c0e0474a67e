import UwbRanging.Main
import UwbRanging.Program.Rehearsal
import UwbRanging.Proofs.Collection.Schedule
import UwbRanging.Proofs.Telemetry.RangeLines
import UwbRanging.Proofs.Text.Trim
import UwbRanging.Proofs.Decimal.Digits
import UwbRanging.Proofs.Collection.DumpedExchange
import UwbRanging.Proofs.SavedText.Legible
import UwbRanging.Proofs.SavedText.Scalars
import UwbRanging.Proofs.SavedText.Composite
import UwbRanging.Proofs.SavedText.SavedRun
import UwbRanging.Proofs.Decimal.Nearest
import UwbRanging.Proofs.Decimal.Places
import UwbRanging.Proofs.Decimal.Shortest
import UwbRanging.Proofs.SavedText.Numbers
import UwbRanging.Proofs.Float.Bounds
import UwbRanging.Proofs.Exchange
import UwbRanging.Proofs.Simulation.Chance
import UwbRanging.Proofs.Simulation.PrintedLines
import UwbRanging.Proofs.Simulation.Understood
import UwbRanging.Proofs.Simulation.Testbed
import UwbRanging.Proofs.Statistics.FilteredSet
import UwbRanging.Proofs.Evaluation.Rows
import UwbRanging.Proofs.Evaluation.Accounting
import UwbRanging.Proofs.Evaluation.DerivedTdoa
import UwbRanging.Proofs.Evaluation.Independence
import UwbRanging.Proofs.Exact.Extended
import UwbRanging.Proofs.Exact.Length
import UwbRanging.Proofs.Statistics.Order
import UwbRanging.Proofs.Evaluation.Groups
import UwbRanging.Proofs.Evaluation.Reordering
import UwbRanging.Proofs.Statistics.Exact
import UwbRanging.Proofs.Statistics.Scale
import UwbRanging.Proofs.Evaluation.Units
import UwbRanging.Proofs.Exchange.ClockOffsets
import UwbRanging.Proofs.Exchange.Exact
import UwbRanging.Proofs.Exchange.ConstantRates
import UwbRanging.Proofs.Float.Order
import UwbRanging.Proofs.Float.Nearest
import UwbRanging.Proofs.Float.Value
import UwbRanging.Proofs.Evaluation.Failure
import UwbRanging.Proofs.Guarded
import UwbRanging.Proofs.Exchange.Degenerate
import UwbRanging.Proofs.Exchange.Agreement
import UwbRanging.Proofs.Statistics.Outlier
import UwbRanging.Proofs.Exchange.Rounded
import UwbRanging.Proofs.Simulation.Accuracy
import UwbRanging.Proofs.Statistics.Refiltering
import UwbRanging.Proofs.Float.NotANumber
import UwbRanging.Proofs.Statistics.NotANumber
import UwbRanging.Proofs.Statistics.MovingAverage
import UwbRanging.Proofs.Collection.LatestAverages
import UwbRanging.Proofs.Statistics.Confidence
import UwbRanging.Proofs.Exact.Real
import UwbRanging.Proofs.Statistics.Interval
import UwbRanging.Proofs.Evaluation.Differences
import UwbRanging.Proofs.Evaluation.GroundTruth
import UwbRanging.Proofs.Evaluation.Breakdown
import UwbRanging.Proofs.Collection.Completion
import UwbRanging.Proofs.Telemetry.Positions
import UwbRanging.Proofs.Terminal.DeviceSelector
import UwbRanging.Proofs.Terminal.FoldUntilStop
import UwbRanging.Proofs.Config
import UwbRanging.Proofs.SavedText.Records
import UwbRanging.Proofs.SavedText.WholeFile
import UwbRanging.Proofs.SavedText.Settings
