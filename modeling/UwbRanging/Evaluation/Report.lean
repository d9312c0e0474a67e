import UwbRanging.Config
import UwbRanging.Evaluation.Activity
import UwbRanging.Evaluation.DerivedTdoa
import UwbRanging.Evaluation.ParameterReport
import UwbRanging.Statistics.Outlier

/-!
The evaluation of a run. Each of its sets is converted to the unit of the report, filtered for outliers,
pruned of sparse series and summarised, and compared with what is known of the truth. It breaks off where a filter
does.
-/

namespace UwbRanging

open Statistics

/-- Statistics of one series, as a whole and by parameter. -/
structure PairSummary (κ α : Type) where
  key : κ
  summary : Summary α
  byParameter : ParameterReport α
  deriving BEq

structure PairEvaluation (κ α : Type) where
  pair : PairSummary κ α
  groundTruth : Option α
  /-- How far the mean is from the truth. -/
  error : Option α
  deriving BEq

/-- Every distance is in `unit`. -/
structure EvaluationReport (α : Type) where
  unit : LengthUnit
  /-- Ranges that the nodes computed. -/
  twr : List (PairEvaluation RangeKey α)
  /-- Ranges from the clock readings of exchanges. -/
  exchanges : List (PairEvaluation RangeKey α)
  /-- Distance differences that listeners computed. -/
  tdoa : List (PairEvaluation TdoaKey α)
  /-- Distance differences derived from the filtered ranges. -/
  derivedTdoa : SortedMap TdoaKey α
  /-- The number of measurements dropped as outliers. -/
  outliers : Nat
  /-- The number of series dropped as sparse. -/
  pruned : Nat
  /-- Before anything was dropped. -/
  activity : Option (RunActivity α)

variable {α : Type} [Arith α] {κ : Type} [KeyOrder κ]

/-- Summarises every series that has measurements, in ascending order of the keys. -/
def summarizeSet [StudentQuantile α] (s : MeasurementSet κ α) (confidence : α) :
    Except RangingError (List (PairSummary κ α)) :=
  (s.series.entries.filter fun (_, series) => !series.isEmpty).mapM fun (key, series) => do
    let summary ← summarize (series.map Measurement.distance) confidence
    return ⟨key, summary, ← ParameterReport.build series confidence⟩

/-- Drops the series with fewer than `minCount` measurements, and counts them. -/
def pruneSparse (s : MeasurementSet κ α) (minCount : Nat) : MeasurementSet κ α × Nat :=
  let kept := s.retain fun _ series => minCount ≤ series.length
  (kept, s.size - kept.size)

/-- Compares a summary with the truth, if that is known. -/
def PairSummary.compare (truth : Option α) (pair : PairSummary κ α) : PairEvaluation κ α where
  pair :=
    match truth with
    | none => pair
    | some t => { pair with byParameter := pair.byParameter.withGroundTruth t }
  groundTruth := truth
  error := truth.map (absoluteError pair.summary.mean)

/-- What becomes of one set of a run. -/
structure SetEvaluation (κ α : Type) [KeyOrder κ] where
  /-- What stayed of the set. -/
  kept : MeasurementSet κ α
  rows : List (PairEvaluation κ α)
  outliers : Nat
  pruned : Nat

variable [UnorderedSort] [StudentQuantile α]

def evaluateSet (s : MeasurementSet κ α) (config : EvaluationConfig α) (truth : κ → Option α) :
    Except Interruption (SetEvaluation κ α) :=
  match filterMeasurementSet (s.convert config.rangeUnit) config.threshold with
  | none => .error .brokenOff
  | some (filtered, outliers) => do
    let (kept, pruned) := pruneSparse filtered (max config.minCount 1)
    let pairs ← (summarizeSet kept config.confidence).mapError .failed
    return { kept, rows := pairs.map fun pair => pair.compare (truth pair.key), outliers, pruned }

def evaluateRun (run : CollectedRun α) (config : EvaluationConfig α) :
    Except Interruption (EvaluationReport α) := do
  let rangeTruth : RangeKey → Option α := fun (a, b) => config.groundTruthFor a b
  let tdoaTruth : TdoaKey → Option α := fun (l, a, b) => config.tdoaTruthFor l a b
  let twr ← evaluateSet run.twr config rangeTruth
  let exchanges ← evaluateSet run.exchanges config rangeTruth
  let tdoa ← evaluateSet run.tdoa config tdoaTruth
  return {
    unit := config.rangeUnit
    twr := twr.rows
    exchanges := exchanges.rows
    tdoa := tdoa.rows
    derivedTdoa := tdoaFromMeanRanges (meanRanges twr.kept)
    outliers := twr.outliers + exchanges.outliers + tdoa.outliers
    pruned := twr.pruned + exchanges.pruned + tdoa.pruned
    activity := run.activity? config.parameterStep
  }

end UwbRanging
