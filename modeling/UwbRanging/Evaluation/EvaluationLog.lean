import UwbRanging.Evaluation.Table
import UwbRanging.Log

/-!
What is logged about the evaluation of a run.
-/

namespace UwbRanging

variable [Statistics.UnorderedSort]

/-- The outliers in a set, as an entry of the log. There is none where the filter breaks off. -/
def outlierRemark? {κ : Type} [KeyOrder κ] (s : MeasurementSet κ Float) (config : EvaluationConfig Float) :
    Option LogEntry :=
  (Statistics.filterMeasurementSet (s.convert config.rangeUnit) config.threshold).map fun (_, outliers) =>
    ⟨.debug, .outlier, "Filtered " ++ toString outliers ++ " outliers from measurement set"⟩

/-- Whether the summaries of a set can be computed. -/
def canEvaluate {κ : Type} [KeyOrder κ] (s : MeasurementSet κ Float) (config : EvaluationConfig Float) :
    Bool :=
  (evaluateSet s config fun _ => none).isOk

/-- The sets are filtered one after the other, up to one that cannot be evaluated. -/
def evaluationLog (run : CollectedRun Float) (config : EvaluationConfig Float) : Log :=
  (outlierRemark? run.twr config).toList ++ if !canEvaluate run.twr config then []
  else (outlierRemark? run.exchanges config).toList ++ if !canEvaluate run.exchanges config then []
  else (outlierRemark? run.tdoa config).toList ++
    match evaluateRun run config with
    | .ok report => [⟨.info, .aggregation, "Evaluated run: " ++ report.footer⟩]
    | .error _ => []

end UwbRanging
