import UwbRanging.Proofs.Evaluation.Rows

/-!
Nothing is lost in an evaluation and nothing is added. Every series of a run has a row or is pruned, and every
measurement is an outlier, or counted in a row, or left in a series that is pruned.
-/

namespace UwbRanging

open Statistics

section Accounts

variable {α : Type} [Arith α] [UnorderedSort] {κ : Type} [KeyOrder κ]

/-- What the plain filter says of the distances at a key in the unit of the report. -/
def filteredAt (s : MeasurementSet κ α) (config : EvaluationConfig α) (k : κ) : Option (FilterOutcome α) :=
  filterOutliers ((s.distances k).map (· * s.unit.factorTo config.rangeUnit)) config.threshold

/-- How many measurements of the series at a key are kept, as the plain filter says; none if there is no series, and
none if the filter breaks off. -/
def keptCount (s : MeasurementSet κ α) (config : EvaluationConfig α) (k : κ) : Nat :=
  (filteredAt s config k).elim 0 (·.retained.length)

/-- The rows of a set in a report: no filter broke off, there is one row for each key that keeps enough measurements, in
ascending order, and each counts what is kept. -/
structure RowsAccounted (s : MeasurementSet κ α) (config : EvaluationConfig α) (rows : List (PairEvaluation κ α)) :
    Prop where
  filtered : ∀ k, (filteredAt s config k).isSome = true
  row_iff : ∀ k, (∃ row ∈ rows, row.pair.key = k) ↔ max config.minCount 1 ≤ keptCount s config k
  ascending : rows.Pairwise fun a b => KeyOrder.lt a.pair.key b.pair.key = true
  count_eq : ∀ row ∈ rows, row.pair.summary.count = keptCount s config row.pair.key

/-- The measurements that are counted in some rows. -/
def countedIn (rows : List (PairEvaluation κ α)) : Nat :=
  (rows.map (·.pair.summary.count)).sum

/-- The measurements that are kept at keys without a row. -/
def leftInPruned (s : MeasurementSet κ α) (config : EvaluationConfig α) : Nat :=
  ((s.keys.filter fun k => keptCount s config k < max config.minCount 1).map (keptCount s config)).sum

theorem length_keptOf_le (config : EvaluationConfig α) (unit : LengthUnit) (series : List (Measurement α)) :
    (config.keptOf unit series).length ≤ series.length :=
  Nat.le_trans (keptClose_sublist _ _).length_le (Nat.le_of_eq (List.length_map _))

theorem isSome_filteredAt {s : MeasurementSet κ α} {config : EvaluationConfig α} (h : s.FilterableFor config) (k : κ) :
    (filteredAt s config k).isSome = true := by
  rw [filteredAt, ← s.distances_convert, filterOutliers_distances_mapSeries h]
  rfl

theorem keptCount_of_some {s : MeasurementSet κ α} {k : κ} {series : List (Measurement α)}
    (h : s.series? k = some series) (config : EvaluationConfig α) :
    keptCount s config k = (config.keptOf s.unit series).length := by
  have hconverted : (s.distances k).map (· * s.unit.factorTo config.rangeUnit) =
      (series.map fun m => { m with distance := m.distance * s.unit.factorTo config.rangeUnit }).map
        Measurement.distance := by
    rw [MeasurementSet.distances, h]
    simp only [Option.getD_some, List.map_map, Function.comp_def]
  rw [keptCount, filteredAt, hconverted, filterOutliers_distances, EvaluationConfig.keptOf, keptClose]
  cases closeMeasurements config.threshold
    (series.map fun m => { m with distance := m.distance * s.unit.factorTo config.rangeUnit }) with
  | none => rfl
  | some kept => exact List.length_map _

theorem keptCount_of_none {s : MeasurementSet κ α} {k : κ} (h : s.series? k = none) (config : EvaluationConfig α) :
    keptCount s config k = 0 := by
  rw [keptCount, filteredAt, MeasurementSet.distances, h]
  simp only [Option.getD_none, List.map_nil, filterOutliers_nil]
  rfl

theorem keptCount_of_mem {s : MeasurementSet κ α} {d : κ × List (Measurement α)} (h : d ∈ s.series.entries)
    (config : EvaluationConfig α) : keptCount s config d.1 = (config.keptOf s.unit d.2).length :=
  keptCount_of_some (SortedMap.get?_eq_some_iff.2 h) config

theorem leftInPruned_eq (s : MeasurementSet κ α) (config : EvaluationConfig α) :
    leftInPruned s config =
      ((s.series.entries.filter fun d => (config.keptOf s.unit d.2).length < max config.minCount 1).map
        fun d => (config.keptOf s.unit d.2).length).sum := by
  have hfilter : (s.series.entries.filter fun d => keptCount s config d.1 < max config.minCount 1) =
      s.series.entries.filter fun d => (config.keptOf s.unit d.2).length < max config.minCount 1 :=
    List.filter_congr fun d hd => by rw [keptCount_of_mem hd]
  rw [leftInPruned, MeasurementSet.keys, SortedMap.keys, List.filter_map, List.map_map]
  simp only [Function.comp_def, hfilter]
  exact congrArg List.sum (List.map_congr_left fun d hd => keptCount_of_mem (List.mem_of_mem_filter hd) config)

/-- A series stays if and only if it keeps enough measurements. -/
theorem mem_keys_evaluated_iff (s : MeasurementSet κ α) (config : EvaluationConfig α) (k : κ) :
    k ∈ (s.evaluated config).keys ↔ max config.minCount 1 ≤ keptCount s config k := by
  simp only [MeasurementSet.keys, SortedMap.mem_keys_iff, SortedMap.get?_eq_some_iff, MeasurementSet.mem_evaluated_iff]
  cases hk : s.series? k with
  | none =>
      rw [keptCount_of_none hk]
      simp
  | some series =>
      rw [keptCount_of_some hk]
      simp

section Rows

variable [StudentQuantile α] {s : MeasurementSet κ α} {config : EvaluationConfig α} {truth : κ → Option α}
  {rows : List (PairEvaluation κ α)}

/-- The rows carry the keys of what stays, and count it. -/
theorem keys_and_counts_eq (h : s.rowsOf config truth = .ok rows) :
    rows.map (fun row => (row.pair.key, row.pair.summary.count)) =
      (s.evaluated config).series.entries.map fun d => (d.1, d.2.length) := by
  refine (map_eq_map_of_forall₂ (rowsOf_eq_ok_iff.1 h).2 fun d row hrow => ?_).symm
  obtain ⟨hkey, hcount⟩ := of_rowOf hrow
  rw [hkey, hcount]

theorem keys_rows_eq (h : s.rowsOf config truth = .ok rows) : rows.map (·.pair.key) = (s.evaluated config).keys := by
  have hkeys := congrArg (List.map Prod.fst) (keys_and_counts_eq h)
  rw [List.map_map, List.map_map] at hkeys
  exact hkeys

theorem countedIn_eq (h : s.rowsOf config truth = .ok rows) :
    countedIn rows = ((s.evaluated config).series.entries.map fun d => d.2.length).sum := by
  have hcounts := congrArg (List.map Prod.snd) (keys_and_counts_eq h)
  rw [List.map_map, List.map_map] at hcounts
  exact congrArg List.sum hcounts

theorem rowsAccounted (h : s.rowsOf config truth = .ok rows) : RowsAccounted s config rows where
  filtered := isSome_filteredAt (rowsOf_eq_ok_iff.1 h).1
  row_iff k := by
    rw [← mem_keys_evaluated_iff, ← keys_rows_eq h, List.mem_map]
  ascending := by
    have hsorted : ((s.evaluated config).keys).Pairwise fun a b => KeyOrder.lt a b = true :=
      List.pairwise_map.2 (s.evaluated config).series.sorted
    rw [← keys_rows_eq h] at hsorted
    exact List.pairwise_map.1 hsorted
  count_eq row hrow := by
    obtain ⟨kept, hkept, hmade⟩ := (mem_rows_iff h).1 hrow
    obtain ⟨series, hseries, rfl, -⟩ := MeasurementSet.mem_evaluated_iff.1 (SortedMap.get?_eq_some_iff.1 hkept)
    rw [(of_rowOf hmade).2, keptCount_of_some hseries]

/-- Every series of a set has a row or is pruned. -/
theorem size_eq_rows_add_pruned (h : s.rowsOf config truth = .ok rows) :
    s.size = rows.length + s.prunedCount config := by
  have hrows : rows.length = (s.evaluated config).size := (rowsOf_eq_ok_iff.1 h).2.length_eq.symm
  have hle : (s.evaluated config).size ≤ s.size := by
    have hfilter := List.length_filter_le (fun d => decide (max config.minCount 1 ≤ d.2.length))
      (s.series.map fun _ series => config.keptOf s.unit series).entries
    rwa [SortedMap.length_map] at hfilter
  rw [MeasurementSet.prunedCount]
  omega

/-- Every measurement of a set is an outlier, or counted in a row, or left in a series that is pruned. -/
theorem totalMeasurements_eq_outliers_add (h : s.rowsOf config truth = .ok rows) :
    s.totalMeasurements = s.outlierCount config + countedIn rows + leftInPruned s config := by
  rw [countedIn_eq h, s.entries_evaluated, leftInPruned_eq, s.totalMeasurements_eq, MeasurementSet.outlierCount]
  induction s.series.entries with
  | nil => rfl
  | cons d entries ih =>
      have hle := length_keptOf_le config s.unit d.2
      by_cases hcount : max config.minCount 1 ≤ (config.keptOf s.unit d.2).length
      · simp only [List.map_cons, List.filter_cons, hcount, Nat.not_lt.2 hcount, decide_true, decide_false, if_true,
          Bool.false_eq_true, if_false, List.sum_cons] at ih ⊢
        omega
      · simp only [List.map_cons, List.filter_cons, hcount, Nat.not_le.1 hcount, decide_true, decide_false, if_true,
          Bool.false_eq_true, if_false, List.sum_cons] at ih ⊢
        omega

end Rows

/-- A report accounts for all that was evaluated: each of the three sets has its rows, the series are those with a row
and those that are pruned, and the measurements are the outliers, those counted in rows and those left in pruned
series. -/
theorem evaluateRun_accounts [StudentQuantile α] {run : CollectedRun α} {config : EvaluationConfig α}
    {report : EvaluationReport α} (h : evaluateRun run config = .ok report) :
    RowsAccounted run.twr config report.twr ∧ RowsAccounted run.exchanges config report.exchanges ∧
    RowsAccounted run.tdoa config report.tdoa ∧
    run.twr.size + run.exchanges.size + run.tdoa.size =
      report.twr.length + report.exchanges.length + report.tdoa.length + report.pruned ∧
    run.twr.totalMeasurements + run.exchanges.totalMeasurements + run.tdoa.totalMeasurements =
      report.outliers + (countedIn report.twr + countedIn report.exchanges + countedIn report.tdoa) +
        (leftInPruned run.twr config + leftInPruned run.exchanges config + leftInPruned run.tdoa config) := by
  obtain ⟨twr, exchanges, tdoa, htwr, hexchanges, htdoa, rfl⟩ := evaluateRun_ok h
  refine ⟨rowsAccounted htwr, rowsAccounted hexchanges, rowsAccounted htdoa, ?_, ?_⟩
  · rw [size_eq_rows_add_pruned htwr, size_eq_rows_add_pruned hexchanges, size_eq_rows_add_pruned htdoa]
    simp only [CollectedRun.reportOf]
    omega
  · rw [totalMeasurements_eq_outliers_add htwr, totalMeasurements_eq_outliers_add hexchanges,
      totalMeasurements_eq_outliers_add htdoa]
    simp only [CollectedRun.reportOf]
    omega

end Accounts

/-- A run with an outlier, a range that is not a number, a single range, a series without ranges, and an exchange in
ticks. -/
def crowdedRun : CollectedRun Float where
  twr := ⟨.centimeters, .ofList [((1, 2), [⟨0, 100⟩, ⟨0, 110⟩, ⟨7, 900⟩]), ((1, 3), [⟨0, 0 / 0⟩]), ((1, 4), [⟨3, 40⟩]),
    ((2, 1), [])]⟩
  tdoa := .empty .centimeters
  exchanges := ⟨.ticks, .ofList [((2, 1), [⟨0, 213⟩, ⟨0, 214⟩])]⟩
  streams := .empty

/-- Seven measurements: two of them outliers, four in rows, and one left in a series that is pruned. -/
theorem evaluateRun_accounts_crowded :
    ∃ report, evaluateRun crowdedRun { EvaluationConfig.default with minCount := 2 } = .ok report ∧
      RowsAccounted crowdedRun.twr { EvaluationConfig.default with minCount := 2 } report.twr ∧
      4 + 1 + 0 = report.twr.length + report.exchanges.length + report.tdoa.length + report.pruned ∧
      5 + 2 + 0 = report.outliers + (countedIn report.twr + countedIn report.exchanges + countedIn report.tdoa) +
        (1 + 0 + 0) ∧ report.outliers = 2 ∧ report.pruned = 3 := by
  have hcounts : ((evaluateRun crowdedRun { EvaluationConfig.default with minCount := 2 }).map
      fun report => (report.outliers, report.pruned)) = .ok (2, 3) := by decide +kernel
  obtain ⟨report, hreport, hpair⟩ := map_eq_ok_iff.1 hcounts
  obtain ⟨htwr, -, -, hpairs, hmeasurements⟩ := evaluateRun_accounts hreport
  obtain ⟨houtliers, hpruned⟩ := Prod.mk.inj hpair
  have hleft : leftInPruned crowdedRun.twr { EvaluationConfig.default with minCount := 2 } = 1 ∧
      leftInPruned crowdedRun.exchanges { EvaluationConfig.default with minCount := 2 } = 0 ∧
      leftInPruned crowdedRun.tdoa { EvaluationConfig.default with minCount := 2 } = 0 := by decide +kernel
  rw [hleft.1, hleft.2.1, hleft.2.2] at hmeasurements
  exact ⟨report, hreport, htwr, hpairs, hmeasurements, houtliers, hpruned⟩

end UwbRanging
