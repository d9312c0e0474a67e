import Mathlib.Algebra.Ring.Nat
import UwbRanging.Evaluation.Report
import UwbRanging.Proofs.Statistics.FilteredSet
import UwbRanging.Proofs.Statistics.Summary

/-!
A set is evaluated series by series. What stays of a series depends on that series and its unit alone, and so does the
row that is made of what stays. No set has rows if the filter breaks off at one of its series.
-/

namespace UwbRanging

open Statistics

variable {α : Type} [Arith α] {κ : Type}

/-- The true distance of the two nodes of a key. -/
def EvaluationConfig.rangeTruth (config : EvaluationConfig α) (k : RangeKey) : Option α :=
  config.groundTruthFor k.1 k.2

/-- The true distance difference at the listener of a key. -/
def EvaluationConfig.tdoaTruth (config : EvaluationConfig α) (k : TdoaKey) : Option α :=
  config.tdoaTruthFor k.1 k.2.1 k.2.2

/-- What stays of a series in the given unit: the measurements that are close to the median, in the unit of the
report. -/
def EvaluationConfig.keptOf [UnorderedSort] (config : EvaluationConfig α) (unit : LengthUnit)
    (series : List (Measurement α)) : List (Measurement α) :=
  keptClose config.threshold (series.map fun m => { m with distance := m.distance * unit.factorTo config.rangeUnit })

/-- The row of a key and what stays of its series. -/
def EvaluationConfig.rowOf [StudentQuantile α] (config : EvaluationConfig α) (truth : κ → Option α) (k : κ)
    (kept : List (Measurement α)) : Except RangingError (PairEvaluation κ α) := do
  let summary ← summarize (kept.map Measurement.distance) config.confidence
  let byParameter ← ParameterReport.build kept config.confidence
  return PairSummary.compare (truth k) ⟨k, summary, byParameter⟩

@[simp] theorem key_compare (truth : Option α) (pair : PairSummary κ α) : (pair.compare truth).pair.key = pair.key := by
  cases truth <;> rfl

@[simp] theorem summary_compare (truth : Option α) (pair : PairSummary κ α) :
    (pair.compare truth).pair.summary = pair.summary := by
  cases truth <;> rfl

/-- A row is made of the summary of what stays and its breakdown, and compared with the truth. -/
theorem rowOf_eq_ok_iff [StudentQuantile α] {config : EvaluationConfig α} {truth : κ → Option α} {k : κ}
    {kept : List (Measurement α)} {row : PairEvaluation κ α} :
    config.rowOf truth k kept = .ok row ↔
      ∃ summary byParameter, summarize (kept.map Measurement.distance) config.confidence = .ok summary ∧
        ParameterReport.build kept config.confidence = .ok byParameter ∧
        PairSummary.compare (truth k) ⟨k, summary, byParameter⟩ = row := by
  simp only [EvaluationConfig.rowOf, bind_eq_ok_iff, pure, Except.pure, Except.ok.injEq, exists_and_left]

/-- A row carries its key and counts what stays of the series. -/
theorem of_rowOf [StudentQuantile α] {config : EvaluationConfig α} {truth : κ → Option α} {k : κ}
    {kept : List (Measurement α)} {row : PairEvaluation κ α} (h : config.rowOf truth k kept = .ok row) :
    row.pair.key = k ∧ row.pair.summary.count = kept.length := by
  obtain ⟨summary, byParameter, hsummary, -, rfl⟩ := rowOf_eq_ok_iff.1 h
  rw [key_compare, summary_compare, count_of_summarize hsummary, List.length_map]
  exact ⟨rfl, rfl⟩

/-- The mean of a row is that of what stays of the series. -/
theorem mean_of_rowOf [StudentQuantile α] {config : EvaluationConfig α} {truth : κ → Option α} {k : κ}
    {kept : List (Measurement α)} {row : PairEvaluation κ α} (h : config.rowOf truth k kept = .ok row) :
    mean (kept.map Measurement.distance) = .ok row.pair.summary.mean := by
  obtain ⟨summary, byParameter, hsummary, -, rfl⟩ := rowOf_eq_ok_iff.1 h
  rw [summary_compare]
  exact mean_of_summarize hsummary

/-- A row is compared with the truth about its key. -/
theorem truth_of_rowOf [StudentQuantile α] {config : EvaluationConfig α} {truth : κ → Option α} {k : κ}
    {kept : List (Measurement α)} {row : PairEvaluation κ α} (h : config.rowOf truth k kept = .ok row) :
    row.groundTruth = truth k ∧ row.error = (truth k).map (absoluteError row.pair.summary.mean) := by
  obtain ⟨summary, byParameter, -, -, rfl⟩ := rowOf_eq_ok_iff.1 h
  rw [summary_compare]
  exact ⟨rfl, rfl⟩

variable [UnorderedSort] [KeyOrder κ]

/-- The filter breaks off at no series of the set, in the unit of the report. -/
def MeasurementSet.FilterableFor (s : MeasurementSet κ α) (config : EvaluationConfig α) : Prop :=
  Filterable (s.convert config.rangeUnit) config.threshold

instance (s : MeasurementSet κ α) (config : EvaluationConfig α) : Decidable (s.FilterableFor config) :=
  inferInstanceAs (Decidable (Filterable (s.convert config.rangeUnit) config.threshold))

theorem MeasurementSet.filterableFor_iff {s : MeasurementSet κ α} {config : EvaluationConfig α} :
    s.FilterableFor config ↔ ∀ d ∈ s.series.entries, (closeMeasurements config.threshold
      (d.2.map fun m => { m with distance := m.distance * s.unit.factorTo config.rangeUnit })).isSome = true :=
  List.forall_mem_map

theorem MeasurementSet.filterableFor_of_isSortable {s : MeasurementSet κ α} {config : EvaluationConfig α}
    (h : ∀ d ∈ s.series.entries,
      isSortable (d.2.map fun m => m.distance * s.unit.factorTo config.rangeUnit) = true) :
    s.FilterableFor config := by
  refine filterableFor_iff.2 fun d hd => ?_
  rw [Option.isSome_iff_ne_none, ne_eq, closeMeasurements_eq_none_iff, List.map_map]
  exact ne_of_eq_of_ne (ascending?_of_isSortable (h d hd)) (Option.some_ne_none _)

/-- The series that stay of a set, in the unit of the report. -/
def MeasurementSet.evaluated (s : MeasurementSet κ α) (config : EvaluationConfig α) : MeasurementSet κ α where
  unit := config.rangeUnit
  series := (s.series.map fun _ series => config.keptOf s.unit series).filter
    fun _ kept => max config.minCount 1 ≤ kept.length

/-- The measurements of a set that are dropped as outliers. -/
def MeasurementSet.outlierCount (s : MeasurementSet κ α) (config : EvaluationConfig α) : Nat :=
  (s.series.entries.map fun d => d.2.length - (config.keptOf s.unit d.2).length).sum

/-- The series of a set that are dropped as sparse. -/
def MeasurementSet.prunedCount (s : MeasurementSet κ α) (config : EvaluationConfig α) : Nat :=
  s.size - (s.evaluated config).size

theorem MeasurementSet.series?_evaluated (s : MeasurementSet κ α) (config : EvaluationConfig α) (k : κ) :
    (s.evaluated config).series? k =
      ((s.series? k).map (config.keptOf s.unit)).filter (max config.minCount 1 ≤ ·.length) := by
  rw [series?, evaluated, SortedMap.get?_filter, SortedMap.get?_map, series?]

theorem MeasurementSet.entries_evaluated (s : MeasurementSet κ α) (config : EvaluationConfig α) :
    (s.evaluated config).series.entries =
      (s.series.entries.map fun d => (d.1, config.keptOf s.unit d.2)).filter
        fun d => max config.minCount 1 ≤ d.2.length :=
  rfl

theorem MeasurementSet.mem_evaluated_iff {s : MeasurementSet κ α} {config : EvaluationConfig α} {k : κ}
    {kept : List (Measurement α)} :
    (k, kept) ∈ (s.evaluated config).series.entries ↔
      ∃ series, s.series? k = some series ∧ config.keptOf s.unit series = kept ∧
        max config.minCount 1 ≤ kept.length := by
  rw [← SortedMap.get?_eq_some_iff, ← series?, series?_evaluated]
  simp only [Option.filter_eq_some_iff, Option.map_eq_some_iff, decide_eq_true_eq, ← and_assoc, exists_and_right]

section Evaluation

variable [StudentQuantile α]

/-- The rows of all series that stay of a set. -/
def MeasurementSet.rowsOf (s : MeasurementSet κ α) (config : EvaluationConfig α) (truth : κ → Option α) :
    Except Interruption (List (PairEvaluation κ α)) :=
  if s.FilterableFor config then
    ((s.evaluated config).series.entries.mapM fun d => config.rowOf truth d.1 d.2).mapError .failed
  else .error .brokenOff

/-- A set has rows if the filter does not break off and each series that stays has one. -/
theorem rowsOf_eq_ok_iff {s : MeasurementSet κ α} {config : EvaluationConfig α} {truth : κ → Option α}
    {rows : List (PairEvaluation κ α)} :
    s.rowsOf config truth = .ok rows ↔ s.FilterableFor config ∧
      List.Forall₂ (fun d row => config.rowOf truth d.1 d.2 = .ok row) (s.evaluated config).series.entries rows := by
  rw [← mapM_eq_ok_iff, MeasurementSet.rowsOf]
  split <;> rename_i h
  · rw [mapError_eq_ok_iff, and_iff_right h]
  · exact iff_of_false nofun fun hrows => h hrows.1

omit [UnorderedSort] in
theorem summarizeSet_compare (s : MeasurementSet κ α) (config : EvaluationConfig α) (truth : κ → Option α)
    (h : ∀ d ∈ s.series.entries, d.2 ≠ []) :
    (summarizeSet s config.confidence).map (List.map fun pair => pair.compare (truth pair.key)) =
      s.series.entries.mapM fun d => config.rowOf truth d.1 d.2 := by
  have hall : (s.series.entries.filter fun d => !d.2.isEmpty) = s.series.entries := by
    refine List.filter_eq_self.2 fun d hd => ?_
    simpa using h d hd
  rw [summarizeSet]
  change Except.map _ (List.mapM _ (s.series.entries.filter fun d => !d.2.isEmpty)) = _
  rw [hall, map_mapM]
  congr 1
  funext d
  obtain ⟨k, series⟩ := d
  simp only [EvaluationConfig.rowOf]
  cases summarize (series.map Measurement.distance) config.confidence with
  | error error => rfl
  | ok summary => cases ParameterReport.build series config.confidence <;> rfl

omit [StudentQuantile α] in
theorem filterMeasurementSet_convert {s : MeasurementSet κ α} {config : EvaluationConfig α}
    (h : s.FilterableFor config) :
    filterMeasurementSet (s.convert config.rangeUnit) config.threshold =
      some (⟨config.rangeUnit, s.series.map fun _ series => config.keptOf s.unit series⟩, s.outlierCount config) := by
  rw [filterMeasurementSet_of_filterable h]
  simp only [MeasurementSet.convert, MeasurementSet.mapSeries, SortedMap.map, List.map_map, Function.comp_def,
    MeasurementSet.outlierCount, EvaluationConfig.keptOf, List.length_map]

/-- A set is evaluated by making the rows of what stays of its series. -/
theorem evaluateSet_eq (s : MeasurementSet κ α) (config : EvaluationConfig α) (truth : κ → Option α) :
    evaluateSet s config truth = (s.rowsOf config truth).map fun rows =>
      ⟨s.evaluated config, rows, s.outlierCount config, s.prunedCount config⟩ := by
  have hpruned : pruneSparse ⟨config.rangeUnit, s.series.map fun _ series => config.keptOf s.unit series⟩
      (max config.minCount 1) = (s.evaluated config, s.prunedCount config) := by
    simp only [pruneSparse, MeasurementSet.prunedCount, MeasurementSet.size, SortedMap.size, SortedMap.length_map]
    rfl
  have hnonempty : ∀ d ∈ (s.evaluated config).series.entries, d.2 ≠ [] := fun d hd hnil => by
    obtain ⟨_, -, -, hcount⟩ := MeasurementSet.mem_evaluated_iff.1 hd
    rw [hnil, List.length_nil] at hcount
    omega
  rw [MeasurementSet.rowsOf, ← summarizeSet_compare _ config truth hnonempty, evaluateSet]
  by_cases h : s.FilterableFor config
  · simp only [if_pos h, filterMeasurementSet_convert h, hpruned]
    cases summarizeSet (s.evaluated config) config.confidence <;> rfl
  · rw [if_neg h, filterMeasurementSet_of_not_filterable h]
    rfl

/-- The report that the rows of the three sets go into. -/
def CollectedRun.reportOf (run : CollectedRun α) (config : EvaluationConfig α)
    (twr exchanges : List (PairEvaluation RangeKey α)) (tdoa : List (PairEvaluation TdoaKey α)) :
    EvaluationReport α where
  unit := config.rangeUnit
  twr
  exchanges
  tdoa
  derivedTdoa := tdoaFromMeanRanges (meanRanges (run.twr.evaluated config))
  outliers := run.twr.outlierCount config + run.exchanges.outlierCount config + run.tdoa.outlierCount config
  pruned := run.twr.prunedCount config + run.exchanges.prunedCount config + run.tdoa.prunedCount config
  activity := run.activity? config.parameterStep

/-- All that can fail in an evaluation is the filter and the making of rows. -/
theorem evaluateRun_eq (run : CollectedRun α) (config : EvaluationConfig α) :
    evaluateRun run config = do
      let twr ← run.twr.rowsOf config config.rangeTruth
      let exchanges ← run.exchanges.rowsOf config config.rangeTruth
      let tdoa ← run.tdoa.rowsOf config config.tdoaTruth
      return run.reportOf config twr exchanges tdoa := by
  have hsets : evaluateRun run config = do
      let twr ← evaluateSet run.twr config config.rangeTruth
      let exchanges ← evaluateSet run.exchanges config config.rangeTruth
      let tdoa ← evaluateSet run.tdoa config config.tdoaTruth
      return {
        unit := config.rangeUnit
        twr := twr.rows
        exchanges := exchanges.rows
        tdoa := tdoa.rows
        derivedTdoa := tdoaFromMeanRanges (meanRanges twr.kept)
        outliers := twr.outliers + exchanges.outliers + tdoa.outliers
        pruned := twr.pruned + exchanges.pruned + tdoa.pruned
        activity := run.activity? config.parameterStep } := rfl
  rw [hsets, evaluateSet_eq, evaluateSet_eq, evaluateSet_eq]
  cases run.twr.rowsOf config config.rangeTruth with
  | error error => rfl
  | ok twr =>
      cases run.exchanges.rowsOf config config.rangeTruth with
      | error error => rfl
      | ok exchanges => cases run.tdoa.rowsOf config config.tdoaTruth <;> rfl

/-- A report holds the rows of the three sets. -/
theorem evaluateRun_ok {run : CollectedRun α} {config : EvaluationConfig α} {report : EvaluationReport α}
    (h : evaluateRun run config = .ok report) :
    ∃ twr exchanges tdoa, run.twr.rowsOf config config.rangeTruth = .ok twr ∧
      run.exchanges.rowsOf config config.rangeTruth = .ok exchanges ∧
        run.tdoa.rowsOf config config.tdoaTruth = .ok tdoa ∧ report = run.reportOf config twr exchanges tdoa := by
  rw [evaluateRun_eq] at h
  obtain ⟨twr, htwr, h⟩ := bind_eq_ok_iff.1 h
  obtain ⟨exchanges, hexchanges, h⟩ := bind_eq_ok_iff.1 h
  obtain ⟨tdoa, htdoa, h⟩ := bind_eq_ok_iff.1 h
  exact ⟨twr, exchanges, tdoa, htwr, hexchanges, htdoa, (Except.ok.inj h).symm⟩

/-- A row of a set is made of what stays of the series at its key. -/
theorem mem_rows_iff {s : MeasurementSet κ α} {config : EvaluationConfig α} {truth : κ → Option α}
    {rows : List (PairEvaluation κ α)} (h : s.rowsOf config truth = .ok rows) {row : PairEvaluation κ α} :
    row ∈ rows ↔
      ∃ kept, (s.evaluated config).series? row.pair.key = some kept ∧
        config.rowOf truth row.pair.key kept = .ok row := by
  rw [mem_iff_of_forall₂_ok (rowsOf_eq_ok_iff.1 h).2]
  constructor
  · rintro ⟨⟨k, kept⟩, hmem, hrow⟩
    obtain ⟨rfl, -⟩ := of_rowOf hrow
    exact ⟨kept, SortedMap.get?_eq_some_iff.2 hmem, hrow⟩
  · rintro ⟨kept, hkept, hrow⟩
    exact ⟨(row.pair.key, kept), SortedMap.get?_eq_some_iff.1 hkept, hrow⟩

/-- Every series that stays has a row. -/
theorem exists_row {s : MeasurementSet κ α} {config : EvaluationConfig α} {truth : κ → Option α}
    {rows : List (PairEvaluation κ α)} (h : s.rowsOf config truth = .ok rows) {k : κ} {kept : List (Measurement α)}
    (hkept : (s.evaluated config).series? k = some kept) : ∃ row ∈ rows, config.rowOf truth k kept = .ok row :=
  exists_mem_of_mapM_eq_ok (mapM_eq_ok_iff.2 (rowsOf_eq_ok_iff.1 h).2) (SortedMap.get?_eq_some_iff.1 hkept)

theorem truth_of_mem_rows {s : MeasurementSet κ α} {config : EvaluationConfig α} {truth : κ → Option α}
    {rows : List (PairEvaluation κ α)} (h : s.rowsOf config truth = .ok rows) {row : PairEvaluation κ α}
    (hrow : row ∈ rows) : row.groundTruth = truth row.pair.key ∧
      row.error = (truth row.pair.key).map (absoluteError row.pair.summary.mean) := by
  obtain ⟨kept, -, hmade⟩ := (mem_rows_iff h).1 hrow
  exact truth_of_rowOf hmade

end Evaluation

end UwbRanging
