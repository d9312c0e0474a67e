import UwbRanging.Proofs.Evaluation.Reordering
import UwbRanging.Proofs.Statistics.Scale

/-!
In exact arithmetic the unit of a report is a matter of presentation. With the threshold and the fixed true distance in
another unit, the same series and measurements stay, and every distance of the report is converted.
-/

namespace UwbRanging

open Statistics Extended

section Conversion

variable {α : Type} [Arith α] {κ : Type}

def Measurement.times (factor : α) (m : Measurement α) : Measurement α :=
  { m with distance := m.distance * factor }

def ParameterReport.times (factor : α) (r : ParameterReport α) : ParameterReport α :=
  { r with
    means := r.means.map (· * factor)
    stdDevs := r.stdDevs.map (· * factor)
    ciLows := r.ciLows.map (· * factor)
    ciHighs := r.ciHighs.map (· * factor)
    errors := r.errors.map (List.map (· * factor)) }

/-- The row with every distance multiplied by a factor. -/
def PairEvaluation.times (factor : α) (row : PairEvaluation κ α) : PairEvaluation κ α where
  pair := ⟨row.pair.key, row.pair.summary.times factor, row.pair.byParameter.times factor⟩
  groundTruth := row.groundTruth.map (· * factor)
  error := row.error.map (· * factor)

/-- The report in another unit, with every distance multiplied by the factor to it. -/
def EvaluationReport.convert (report : EvaluationReport α) (unit : LengthUnit) : EvaluationReport α :=
  let factor : α := report.unit.factorTo unit
  { report with
    unit
    twr := report.twr.map (·.times factor)
    exchanges := report.exchanges.map (·.times factor)
    tdoa := report.tdoa.map (·.times factor)
    derivedTdoa := report.derivedTdoa.map fun _ d => d * factor }

/-- The settings of the report in another unit. -/
def EvaluationConfig.convert (config : EvaluationConfig α) (unit : LengthUnit) : EvaluationConfig α :=
  let factor : α := config.rangeUnit.factorTo unit
  { config with
    rangeUnit := unit
    threshold := config.threshold * factor
    groundTruth := config.groundTruth.map (· * factor) }

theorem distances_times (factor : α) (series : List (Measurement α)) :
    (series.map (Measurement.times factor)).map Measurement.distance =
      (series.map Measurement.distance).map (· * factor) := by
  simp only [List.map_map, Function.comp_def, Measurement.times]

theorem groupByParameter_times (factor : α) (series : List (Measurement α)) :
    groupByParameter (series.map (Measurement.times factor)) =
      (groupByParameter series).map fun _ distances => distances.map (· * factor) := by
  have hparameters : (series.map (Measurement.times factor)).map Measurement.parameter =
      series.map Measurement.parameter := by
    simp only [List.map_map, Function.comp_def, Measurement.times]
  refine SortedMap.ext_get? fun p => ?_
  have hunder : distancesUnder (series.map (Measurement.times factor)) p =
      (distancesUnder series p).map (· * factor) := by
    rw [distancesUnder, distancesUnder, List.filter_map, List.map_map, List.map_map]
    rfl
  rw [SortedMap.get?_map, get?_groupByParameter, get?_groupByParameter, hparameters, hunder]
  split <;> rfl

end Conversion

section Series

variable {K : Type} [Field K] [LinearOrder K] [FloorSemiring K] [SquareRoot K]

section Sorting

variable [UnorderedSort] (threshold : Extended K) (series : List (Measurement (Extended K)))

theorem isFinite_of_mem_keptClose {threshold : Extended K} {series : List (Measurement (Extended K))}
    {m : Measurement (Extended K)} (h : m ∈ keptClose threshold series) : Arith.isFinite m.distance = true := by
  cases hmedian : median (series.map Measurement.distance) with
  | error interruption => cases interruption <;> simp [keptClose, closeMeasurements, hmedian] at h
  | ok middle =>
      rw [keptClose_of_median hmedian] at h
      exact isFinite_of_isClose (List.mem_filter.1 h).2

variable [IsStrictOrderedRing K] {f : K} (hf : 0 < f)
include hf

theorem closeMeasurements_times :
    closeMeasurements (threshold * finite f) (series.map (Measurement.times (finite f))) =
      (closeMeasurements threshold series).map (List.map (Measurement.times (finite f))) := by
  have hclose (middle : Extended K) (m : Measurement (Extended K)) :
      isClose (threshold * finite f) (scale f middle) (m.times (finite f)).distance =
        isClose threshold middle m.distance := by
    rw [Measurement.times, mul_finite _ hf, mul_finite _ hf, isClose_scale hf]
  have hmedian : median ((series.map (Measurement.times (finite f))).map Measurement.distance) =
      (median (series.map Measurement.distance)).map (scale f) := by
    simp only [distances_times, mul_finite _ hf, median_scale hf]
  unfold closeMeasurements
  rw [hmedian]
  cases median (series.map Measurement.distance) with
  | error interruption => cases interruption <;> rfl
  | ok middle =>
      change some (List.filter _ _) = _
      simp only [List.filter_map, Function.comp_def, hclose, Option.map_some]

end Sorting

variable [IsStrictOrderedRing K] {f : K} (hf : 0 < f)
include hf

theorem absoluteError_times (mean truth : Extended K) :
    absoluteError (mean * finite f) (truth * finite f) = absoluteError mean truth * finite f := by
  simp only [absoluteError, mul_finite _ hf, ← scale_sub, abs_scale _ hf]

theorem compare_times {κ : Type} (truth : Option (Extended K)) (k : κ) (summary : Summary (Extended K))
    (byParameter : ParameterReport (Extended K)) :
    PairSummary.compare (truth.map (· * finite f)) ⟨k, summary.times (finite f), byParameter.times (finite f)⟩ =
      (PairSummary.compare truth ⟨k, summary, byParameter⟩).times (finite f) := by
  cases truth with
  | none => rfl
  | some t =>
      simp only [PairSummary.compare, PairEvaluation.times, ParameterReport.withGroundTruth, ParameterReport.times,
        Summary.times, Option.map_some, List.map_map, Function.comp_def, absoluteError_times hf]

variable [StudentQuantile (Extended K)]
  (hsqrt : ∀ f x : K, 0 < f → SquareRoot.sqrt (finite (f ^ 2 * x)) = SquareRoot.sqrt (finite x) * finite f)
include hsqrt

theorem build_times {series : List (Measurement (Extended K))}
    (hfinite : ∀ m ∈ series, Arith.isFinite m.distance = true) (confidence : Extended K) :
    ParameterReport.build (series.map (Measurement.times (finite f))) confidence =
      (ParameterReport.build series confidence).map (ParameterReport.times (finite f)) := by
  have hrows : (groupByParameter (series.map (Measurement.times (finite f)))).entries.mapM
        (fun d => (summarize d.2 confidence).map (d.1, ·)) =
      ((groupByParameter series).entries.mapM fun d => (summarize d.2 confidence).map (d.1, ·)).map
        (List.map fun row => (row.1, row.2.times (finite f))) := by
    rw [groupByParameter_times]
    refine mapM_map_eq fun d hd => ?_
    have hfinite : ∀ x ∈ d.2, Arith.isFinite x = true := fun x hx => by
      obtain ⟨m, hm, rfl⟩ := distances_of_mem_group hd hx
      exact hfinite m hm
    simp only [mul_finite _ hf, summarize_scale hf hsqrt hfinite]
    cases summarize d.2 confidence <;> rfl
  rw [build_eq, build_eq, hrows]
  cases (groupByParameter series).entries.mapM fun d => (summarize d.2 confidence).map (d.1, ·) with
  | error error => rfl
  | ok rows =>
      simp only [Except.map, ParameterReport.times, ParameterReport.ofSummaries, List.map_map, Function.comp_def,
        Summary.times, Option.map_none]

theorem rowOf_times {κ : Type} {config config' : EvaluationConfig (Extended K)} {truth truth' : κ → Option (Extended K)}
    {k : κ} (hconfidence : config'.confidence = config.confidence) (htruth : truth' k = (truth k).map (· * finite f))
    {kept : List (Measurement (Extended K))} (hfinite : ∀ m ∈ kept, Arith.isFinite m.distance = true) :
    config'.rowOf truth' k (kept.map (Measurement.times (finite f))) =
      (config.rowOf truth k kept).map (PairEvaluation.times (finite f)) := by
  have hdistances : ∀ x ∈ kept.map Measurement.distance, Arith.isFinite x = true := by simpa using hfinite
  rw [EvaluationConfig.rowOf, EvaluationConfig.rowOf, hconfidence, htruth, build_times hf hsqrt hfinite]
  simp only [distances_times, mul_finite _ hf, summarize_scale hf hsqrt hdistances]
  refine map_bind_eq fun summary => map_bind_eq fun byParameter => ?_
  simp only [← mul_finite _ hf, compare_times hf]
  rfl

end Series

section Sets

variable {K : Type} [Field K] [LinearOrder K] [FloorSemiring K] [SquareRoot K] [IsStrictOrderedRing K] {κ : Type}
  [KeyOrder κ] (s : MeasurementSet κ (Extended K)) (config : EvaluationConfig (Extended K)) (unit : LengthUnit)

section Truths

theorem rangeTruth_convert (k : RangeKey) :
    (config.convert unit).rangeTruth k = (config.rangeTruth k).map (· * config.rangeUnit.factorTo unit) := by
  simp only [EvaluationConfig.rangeTruth, EvaluationConfig.groundTruthFor, EvaluationConfig.convert]
  cases config.positions.get? k.1 with
  | none => rfl
  | some p =>
      cases config.positions.get? k.2 with
      | none => rfl
      | some q => simp only [Option.map_some, LengthUnit.mul_factorTo_mul_factorTo]

theorem tdoaTruth_convert (k : TdoaKey) :
    (config.convert unit).tdoaTruth k = (config.tdoaTruth k).map (· * config.rangeUnit.factorTo unit) := by
  simp only [EvaluationConfig.tdoaTruth, EvaluationConfig.tdoaTruthFor, EvaluationConfig.convert]
  cases config.positions.get? k.1 with
  | none => rfl
  | some p =>
      cases config.positions.get? k.2.1 with
      | none => rfl
      | some q =>
          cases config.positions.get? k.2.2 with
          | none => rfl
          | some r => exact congrArg some (LengthUnit.mul_factorTo_mul_factorTo _ _ _ _).symm

end Truths

variable [UnorderedSort]

/-- A series is converted to the unit of the report over any other unit. -/
theorem closeMeasurements_convert (u : LengthUnit) (series : List (Measurement (Extended K))) :
    closeMeasurements (config.convert unit).threshold
        (series.map fun m => { m with distance := m.distance * u.factorTo (config.convert unit).rangeUnit }) =
      (closeMeasurements config.threshold
        (series.map fun m => { m with distance := m.distance * u.factorTo config.rangeUnit })).map
          (List.map (Measurement.times (config.rangeUnit.factorTo unit))) := by
  have hconverted :
      (series.map fun m => { m with distance := m.distance * u.factorTo (config.convert unit).rangeUnit }) =
        (series.map fun m => { m with distance := m.distance * u.factorTo config.rangeUnit }).map
          (Measurement.times (config.rangeUnit.factorTo unit)) := by
    simp only [EvaluationConfig.convert, List.map_map, Function.comp_def, Measurement.times,
      LengthUnit.mul_factorTo_mul_factorTo]
  rw [hconverted, EvaluationConfig.convert, LengthUnit.factorTo_eq config.rangeUnit unit]
  exact closeMeasurements_times _ _ (LengthUnit.ratioTo_pos _ _)

theorem keptOf_convert (u : LengthUnit) (series : List (Measurement (Extended K))) :
    (config.convert unit).keptOf u series =
      (config.keptOf u series).map (Measurement.times (config.rangeUnit.factorTo unit)) := by
  rw [EvaluationConfig.keptOf, EvaluationConfig.keptOf, keptClose, keptClose, closeMeasurements_convert]
  cases closeMeasurements config.threshold
    (series.map fun m => { m with distance := m.distance * u.factorTo config.rangeUnit }) <;> rfl

/-- In no unit does the filter break off where it does not in another. -/
theorem filterableFor_convert : s.FilterableFor (config.convert unit) ↔ s.FilterableFor config := by
  rw [MeasurementSet.filterableFor_iff, MeasurementSet.filterableFor_iff]
  refine forall₂_congr fun d _ => ?_
  rw [closeMeasurements_convert, Option.isSome_map]

theorem evaluated_convert :
    (s.evaluated (config.convert unit)).series = (s.evaluated config).series.map fun _ kept =>
      kept.map (Measurement.times (config.rangeUnit.factorTo unit)) := by
  apply SortedMap.ext
  have hkept := keptOf_convert config unit s.unit
  simp only [SortedMap.map, MeasurementSet.entries_evaluated, hkept, List.filter_map, List.map_map, Function.comp_def,
    List.length_map]
  rfl

theorem outlierCount_convert : s.outlierCount (config.convert unit) = s.outlierCount config := by
  simp only [MeasurementSet.outlierCount, keptOf_convert, List.length_map]

theorem prunedCount_convert : s.prunedCount (config.convert unit) = s.prunedCount config := by
  simp only [MeasurementSet.prunedCount, MeasurementSet.size, SortedMap.size, evaluated_convert, SortedMap.length_map]

omit [IsStrictOrderedRing K] in
theorem isFinite_of_mem_evaluated {d : κ × List (Measurement (Extended K))}
    (h : d ∈ (s.evaluated config).series.entries) : ∀ m ∈ d.2, Arith.isFinite m.distance = true := by
  obtain ⟨series, -, hkept, -⟩ := MeasurementSet.mem_evaluated_iff.1 h
  rw [← hkept]
  exact fun m => isFinite_of_mem_keptClose

theorem rowsOf_convert [StudentQuantile (Extended K)]
    (hsqrt : ∀ f x : K, 0 < f → SquareRoot.sqrt (finite (f ^ 2 * x)) = SquareRoot.sqrt (finite x) * finite f)
    {truth truth' : κ → Option (Extended K)}
    (htruth : ∀ k, truth' k = (truth k).map (· * config.rangeUnit.factorTo unit)) :
    s.rowsOf (config.convert unit) truth' =
      (s.rowsOf config truth).map (List.map (PairEvaluation.times (config.rangeUnit.factorTo unit))) := by
  simp only [MeasurementSet.rowsOf, filterableFor_convert, evaluated_convert]
  split
  case isFalse => rfl
  rw [← map_mapError]
  refine congrArg (Except.mapError _) (mapM_map_eq fun d hd => ?_)
  rw [LengthUnit.factorTo_eq config.rangeUnit unit]
  refine rowOf_times (LengthUnit.ratioTo_pos _ _) hsqrt rfl ?_ (isFinite_of_mem_evaluated s config hd)
  rw [htruth, LengthUnit.factorTo_eq config.rangeUnit unit]

theorem derivedTdoa_convert (s : MeasurementSet RangeKey (Extended K)) :
    tdoaFromMeanRanges (meanRanges (s.evaluated (config.convert unit))) =
      (tdoaFromMeanRanges (meanRanges (s.evaluated config))).map fun _ d => d * config.rangeUnit.factorTo unit := by
  have hf : (0 : K) < config.rangeUnit.ratioTo unit := LengthUnit.ratioTo_pos _ _
  have hmean (k : RangeKey) : (s.evaluated (config.convert unit)).meanAt? k =
      ((s.evaluated config).meanAt? k).map (· * config.rangeUnit.factorTo unit) := by
    rw [MeasurementSet.meanAt?, MeasurementSet.meanAt?, MeasurementSet.series?, MeasurementSet.series?,
      evaluated_convert, SortedMap.get?_map]
    cases (s.evaluated config).series.get? k with
    | none => rfl
    | some kept =>
        simp only [Option.map_some, Option.bind_some, distances_times, LengthUnit.factorTo_eq, mul_finite _ hf,
          mean_scale hf]
        cases mean (kept.map Measurement.distance) <;> rfl
  refine SortedMap.ext_get? ?_
  rintro ⟨node, a, b⟩
  rw [SortedMap.get?_map, get?_tdoaFromMeanRanges, get?_tdoaFromMeanRanges, hmean, hmean]
  simp only [LengthUnit.factorTo_eq, mul_finite _ hf]
  split
  · rfl
  · cases (s.evaluated config).meanAt? (node, a) with
    | none => rfl
    | some x =>
        cases (s.evaluated config).meanAt? (node, b) with
        | none => rfl
        | some y => exact congrArg some (scale_sub _ x y).symm

end Sets

/-- The report in another unit, with the threshold and the fixed true distance in that unit, is the report converted to
the unit; and where one of the two evaluations fails, so does the other. -/
theorem evaluateRun_convert {K : Type} [Field K] [LinearOrder K] [IsStrictOrderedRing K] [FloorSemiring K]
    [SquareRoot K] [UnorderedSort] [StudentQuantile (Extended K)]
    (hsqrt : ∀ f x : K, 0 < f → SquareRoot.sqrt (finite (f ^ 2 * x)) = SquareRoot.sqrt (finite x) * finite f)
    (run : CollectedRun (Extended K)) (config : EvaluationConfig (Extended K)) (unit : LengthUnit) :
    evaluateRun run (config.convert unit) = (evaluateRun run config).map (·.convert unit) := by
  rw [evaluateRun_eq, evaluateRun_eq, rowsOf_convert run.twr config unit hsqrt (rangeTruth_convert config unit),
    rowsOf_convert run.exchanges config unit hsqrt (rangeTruth_convert config unit),
    rowsOf_convert run.tdoa config unit hsqrt (tdoaTruth_convert config unit)]
  refine map_bind_eq fun twr => map_bind_eq fun exchanges => map_bind_eq fun tdoa => congrArg Except.ok ?_
  simp only [CollectedRun.reportOf, derivedTdoa_convert, outlierCount_convert, prunedCount_convert]
  rfl

/-- In meters, the tied ranges have the surveyed distance as truth, and the single range the fixed one. -/
theorem evaluateRun_convert_tied_meters :
    (∀ f x : ℚ, 0 < f → SquareRoot.sqrt (finite (f ^ 2 * x)) = SquareRoot.sqrt (finite x) * finite f) ∧
      evaluateRun tiedRun (surveyedConfig.convert .meters) =
        (evaluateRun tiedRun surveyedConfig).map (·.convert .meters) ∧
      ((evaluateRun tiedRun (surveyedConfig.convert .meters)).map fun report =>
          report.twr.map fun row => (row.pair.summary.mean, row.pair.summary.ciHigh, row.groundTruth)) =
        .ok [(finite 1, finite (301 / 300), some (finite 1)),
          (finite (2 / 5), finite (2 / 5), some (finite (9 / 20)))] := by
  have hsqrt (f x : ℚ) (hf : 0 < f) : SquareRoot.sqrt (finite (f ^ 2 * x)) = SquareRoot.sqrt (finite x) * finite f :=
    sqrt_square_mul hf x
  refine ⟨hsqrt, evaluateRun_convert hsqrt tiedRun surveyedConfig .meters, ?_⟩
  refine toOption_eq_some_iff.1 ?_
  decide +kernel

end UwbRanging
