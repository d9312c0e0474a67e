import UwbRanging.Proofs.Evaluation.Accounting
import UwbRanging.Proofs.Evaluation.Groups
import UwbRanging.Proofs.Evaluation.Reordering
import UwbRanging.Proofs.Statistics.Exact

/-!
A breakdown by parameter splits a series. Each parameter that occurs has one place in columns of one length, and at
this place stands the summary of what was measured under it. The counts add up to the length of the series, and in
exact arithmetic the means, each as often as it counts, to the sum of all distances.
-/

namespace UwbRanging

open Statistics Extended

section Columns

variable {α : Type}

/-- The summary that stands at a place of the columns. -/
def ParameterReport.summaryAt? (r : ParameterReport α) (i : Nat) : Option (Summary α) := do
  return ⟨← r.counts[i]?, ← r.means[i]?, ← r.stdDevs[i]?, ← r.ciLows[i]?, ← r.ciHighs[i]?⟩

theorem summaryAt?_ofSummaries (rows : List (UInt32 × Summary α)) (i : Nat) :
    (ParameterReport.ofSummaries rows).summaryAt? i = rows[i]?.map Prod.snd := by
  simp only [ParameterReport.summaryAt?, ParameterReport.ofSummaries, List.getElem?_map]
  cases rows[i]? <;> rfl

variable [Arith α] [StudentQuantile α]

/-- A breakdown of a series. At the place of each parameter that occurs stands the summary of its distances, in the
order in which they were measured. -/
structure ParameterReport.BreaksDown (r : ParameterReport α) (series : List (Measurement α)) (confidence : α) :
    Prop where
  ascending : r.parameters.Pairwise (· < ·)
  mem_parameters_iff : ∀ p, p ∈ r.parameters ↔ ∃ m ∈ series, m.parameter = p
  length_counts : r.counts.length = r.size
  length_means : r.means.length = r.size
  length_stdDevs : r.stdDevs.length = r.size
  length_ciLows : r.ciLows.length = r.size
  length_ciHighs : r.ciHighs.length = r.size
  length_errors : ∀ errors ∈ r.errors, errors.length = r.size
  exists_summaryAt? : ∀ i p, r.parameters[i]? = some p → ∃ summary, r.summaryAt? i = some summary ∧
    summarize (distancesUnder series p) confidence = .ok summary
  sum_counts : r.counts.sum = series.length

variable {series : List (Measurement α)} {confidence : α} {r : ParameterReport α}

/-- The columns are those of the summaries of the groups. -/
theorem exists_summaries_of_build (h : ParameterReport.build series confidence = .ok r) :
    ∃ rows, List.Forall₂ (fun d row => d.1 = row.1 ∧ summarize d.2 confidence = .ok row.2)
      (groupByParameter series).entries rows ∧ r = ParameterReport.ofSummaries rows := by
  rw [build_eq] at h
  obtain ⟨rows, hrows, rfl⟩ := map_eq_ok_iff.1 h
  refine ⟨rows, (mapM_eq_ok_iff.1 hrows).imp fun d row hrow => ?_, rfl⟩
  obtain ⟨summary, hsummary, rfl⟩ := map_eq_ok_iff.1 hrow
  exact ⟨rfl, hsummary⟩

section Summaries

variable {rows : List (UInt32 × Summary α)}

omit [Arith α] [StudentQuantile α] in
/-- Every column has one entry for each summary. -/
theorem length_column {β : Type} (f : UInt32 × Summary α → β) :
    (rows.map f).length = (ParameterReport.ofSummaries rows).size := by
  rw [ParameterReport.size, ParameterReport.ofSummaries, List.length_map, List.length_map]

variable (hrows : List.Forall₂ (fun d row => d.1 = row.1 ∧ summarize d.2 confidence = .ok row.2)
  (groupByParameter series).entries rows)
include hrows

theorem parameters_ofSummaries : (ParameterReport.ofSummaries rows).parameters = (groupByParameter series).keys :=
  (map_eq_map_of_forall₂ hrows fun _ _ hrow => hrow.1).symm

theorem counts_ofSummaries :
    (ParameterReport.ofSummaries rows).counts = (groupByParameter series).values.map List.length := by
  rw [SortedMap.values, List.map_map]
  exact (map_eq_map_of_forall₂ hrows fun _ _ hrow => (count_of_summarize hrow.2).symm).symm

theorem breaksDown_ofSummaries : (ParameterReport.ofSummaries rows).BreaksDown series confidence where
  ascending := by
    rw [parameters_ofSummaries hrows]
    exact List.pairwise_map.2 ((groupByParameter series).sorted.imp of_decide_eq_true)
  mem_parameters_iff p := by rw [parameters_ofSummaries hrows, mem_keys_groupByParameter_iff]
  length_counts := length_column _
  length_means := length_column _
  length_stdDevs := length_column _
  length_ciLows := length_column _
  length_ciHighs := length_column _
  length_errors := nofun
  exists_summaryAt? i p hp := by
    -- a parameter stands at the place of its group
    change (rows.map Prod.fst)[i]? = some p at hp
    rw [List.getElem?_map] at hp
    obtain ⟨row, hrow, rfl⟩ := Option.map_eq_some_iff.1 hp
    obtain ⟨hi, rfl⟩ := List.getElem?_eq_some_iff.1 hrow
    obtain ⟨hkey, hsummary⟩ := hrows.get (hrows.length_eq ▸ hi) hi
    simp only [List.get_eq_getElem] at hkey hsummary
    rw [(of_mem_group (List.getElem_mem _)).2, hkey] at hsummary
    exact ⟨rows[i].2, by rw [summaryAt?_ofSummaries, hrow, Option.map_some], hsummary⟩
  sum_counts := by
    rw [counts_ofSummaries hrows, ← List.length_flatten, (flatten_groups_perm series).length_eq, List.length_map]

end Summaries

theorem breaksDown_of_build (h : ParameterReport.build series confidence = .ok r) : r.BreaksDown series confidence := by
  obtain ⟨rows, hrows, rfl⟩ := exists_summaries_of_build h
  exact breaksDown_ofSummaries hrows

/-- A comparison with the truth adds a column. -/
theorem ParameterReport.BreaksDown.withGroundTruth (h : r.BreaksDown series confidence) (truth : α) :
    (r.withGroundTruth truth).BreaksDown series confidence where
  ascending := h.ascending
  mem_parameters_iff := h.mem_parameters_iff
  length_counts := h.length_counts
  length_means := h.length_means
  length_stdDevs := h.length_stdDevs
  length_ciLows := h.length_ciLows
  length_ciHighs := h.length_ciHighs
  length_errors := by
    rintro _ ⟨⟩
    exact (List.length_map _).trans h.length_means
  exists_summaryAt? := h.exists_summaryAt?
  sum_counts := h.sum_counts

theorem errors_eq_none_of_build (h : ParameterReport.build series confidence = .ok r) : r.errors = none := by
  obtain ⟨rows, -, rfl⟩ := exists_summaries_of_build h
  rfl

end Columns

section Rows

variable {α : Type} [Arith α] [StudentQuantile α] {κ : Type}

/-- A row about a series, whose parts in the breakdown make up the whole in the summary. -/
structure PairEvaluation.Recombines (row : PairEvaluation κ α) (series : List (Measurement α)) (confidence : α) :
    Prop where
  summarize_eq : summarize (series.map Measurement.distance) confidence = .ok row.pair.summary
  breaksDown : row.pair.byParameter.BreaksDown series confidence
  sum_counts : row.pair.byParameter.counts.sum = row.pair.summary.count
  isSome_errors_iff : row.pair.byParameter.errors.isSome ↔ row.groundTruth.isSome ∧ row.error.isSome

theorem recombines_of_rowOf {config : EvaluationConfig α} {truth : κ → Option α} {k : κ} {kept : List (Measurement α)}
    {row : PairEvaluation κ α} (h : config.rowOf truth k kept = .ok row) : row.Recombines kept config.confidence := by
  obtain ⟨summary, byParameter, hsummary, hbuild, rfl⟩ := rowOf_eq_ok_iff.1 h
  have hbreaks := breaksDown_of_build hbuild
  have hcount : byParameter.counts.sum = summary.count := by
    rw [hbreaks.sum_counts, count_of_summarize hsummary, List.length_map]
  cases htruth : truth k with
  | none => exact ⟨hsummary, hbreaks, hcount, by simp [PairSummary.compare, errors_eq_none_of_build hbuild]⟩
  | some t =>
      exact ⟨hsummary, hbreaks.withGroundTruth t, hcount,
        by simp [PairSummary.compare, ParameterReport.withGroundTruth]⟩

variable [UnorderedSort] [KeyOrder κ]

/-- Every row recombines what stays of the series at its key. -/
def MeasurementSet.RecombinesIn (s : MeasurementSet κ α) (config : EvaluationConfig α)
    (rows : List (PairEvaluation κ α)) : Prop :=
  ∀ row ∈ rows, ∃ kept, (s.evaluated config).series? row.pair.key = some kept ∧ row.Recombines kept config.confidence

theorem recombinesIn_of_rowsOf {s : MeasurementSet κ α} {config : EvaluationConfig α} {truth : κ → Option α}
    {rows : List (PairEvaluation κ α)} (h : s.rowsOf config truth = .ok rows) : s.RecombinesIn config rows := by
  intro row hrow
  obtain ⟨kept, hkept, hmade⟩ := (mem_rows_iff h).1 hrow
  exact ⟨kept, hkept, recombines_of_rowOf hmade⟩

theorem recombinesIn_of_evaluateRun {run : CollectedRun α} {config : EvaluationConfig α} {report : EvaluationReport α}
    (h : evaluateRun run config = .ok report) :
    run.twr.RecombinesIn config report.twr ∧ run.exchanges.RecombinesIn config report.exchanges ∧
      run.tdoa.RecombinesIn config report.tdoa := by
  obtain ⟨twr, exchanges, tdoa, htwr, hexchanges, htdoa, rfl⟩ := evaluateRun_ok h
  exact ⟨recombinesIn_of_rowsOf htwr, recombinesIn_of_rowsOf hexchanges, recombinesIn_of_rowsOf htdoa⟩

end Rows

section Exact

variable {K : Type} [Field K] [LinearOrder K] [FloorSemiring K] [SquareRoot K]

/-- The means of a breakdown, each as often as it counts. -/
def ParameterReport.weightedTotal {α : Type} [Arith α] (r : ParameterReport α) : α :=
  Arith.sum (List.zipWith (fun count mean => Arith.ofNat count * mean) r.counts r.means)

/-- The mean of a row is that of the means in its breakdown. -/
def PairEvaluation.AveragesOut {α κ : Type} [Arith α] (row : PairEvaluation κ α) : Prop :=
  row.pair.byParameter.weightedTotal / Arith.ofNat row.pair.byParameter.counts.sum = row.pair.summary.mean

variable [IsStrictOrderedRing K]

/-- A mean as often as it counts is the sum again, be it a number or not. -/
theorem count_mul_mean {values : List (Extended K)} {m : Extended K} (h : mean values = .ok m) :
    Arith.ofNat values.length * m = Arith.sum values := by
  have hcount : (0 : K) < (values.length : Nat) := Nat.cast_pos.2 (length_pos_of_mean h)
  rw [← sum_div_count_of_mean h]
  exact finite_mul_div_finite _ hcount

variable [StudentQuantile (Extended K)]

theorem weightedTotal_of_build {series : List (Measurement (Extended K))} {confidence : Extended K}
    {r : ParameterReport (Extended K)} (h : ParameterReport.build series confidence = .ok r) :
    r.weightedTotal = Arith.sum (series.map Measurement.distance) := by
  obtain ⟨rows, hrows, rfl⟩ := exists_summaries_of_build h
  have hsums : rows.map (fun row => Arith.ofNat row.2.count * row.2.mean) =
      (groupByParameter series).values.map Arith.sum := by
    rw [SortedMap.values, List.map_map]
    refine (map_eq_map_of_forall₂ hrows fun d row hrow => ?_).symm
    rw [count_of_summarize hrow.2, count_mul_mean (mean_of_summarize hrow.2)]
    rfl
  calc (ParameterReport.ofSummaries rows).weightedTotal
      = Arith.sum (rows.map fun row => Arith.ofNat row.2.count * row.2.mean) := by
        simp only [ParameterReport.weightedTotal, ParameterReport.ofSummaries, List.zipWith_map, List.zipWith_self]
    _ = Arith.sum (groupByParameter series).values.flatten := by rw [hsums, sum_flatten]
    _ = Arith.sum (series.map Measurement.distance) := sum_perm (flatten_groups_perm series)

theorem averagesOut_of_rowOf {κ : Type} {config : EvaluationConfig (Extended K)}
    {truth : κ → Option (Extended K)} {k : κ} {kept : List (Measurement (Extended K))}
    {row : PairEvaluation κ (Extended K)}
    (h : config.rowOf truth k kept = .ok row) : row.AveragesOut := by
  have hmean := sum_div_count_of_mean (mean_of_rowOf h)
  have hcount := (recombines_of_rowOf h).breaksDown.sum_counts
  have htotal : row.pair.byParameter.weightedTotal = Arith.sum (kept.map Measurement.distance) := by
    obtain ⟨summary, byParameter, -, hbuild, rfl⟩ := rowOf_eq_ok_iff.1 h
    rw [← weightedTotal_of_build hbuild]
    cases truth k <;> rfl
  rw [PairEvaluation.AveragesOut, htotal, hcount, ← hmean, List.length_map]

variable [UnorderedSort]

theorem averagesOut_of_mem_rows {κ : Type} [KeyOrder κ] {s : MeasurementSet κ (Extended K)}
    {config : EvaluationConfig (Extended K)} {truth : κ → Option (Extended K)}
    {rows : List (PairEvaluation κ (Extended K))} (h : s.rowsOf config truth = .ok rows) :
    ∀ row ∈ rows, row.AveragesOut := by
  intro row hrow
  obtain ⟨kept, -, hmade⟩ := (mem_rows_iff h).1 hrow
  exact averagesOut_of_rowOf hmade

/-- In exact arithmetic the mean of every row is that of the means in its breakdown. -/
theorem averagesOut_of_evaluateRun {run : CollectedRun (Extended K)} {config : EvaluationConfig (Extended K)}
    {report : EvaluationReport (Extended K)} (h : evaluateRun run config = .ok report) :
    (∀ row ∈ report.twr, row.AveragesOut) ∧ (∀ row ∈ report.exchanges, row.AveragesOut) ∧
      ∀ row ∈ report.tdoa, row.AveragesOut := by
  obtain ⟨twr, exchanges, tdoa, htwr, hexchanges, htdoa, rfl⟩ := evaluateRun_ok h
  exact ⟨averagesOut_of_mem_rows htwr, averagesOut_of_mem_rows hexchanges, averagesOut_of_mem_rows htdoa⟩

end Exact

/-- A breakdown splits its series, with or without the truth, and so does that of every row of a report, in whatever
arithmetic it is made. In exact arithmetic its means recombine to the sum of the series and to the mean of the row. -/
theorem breakdowns_split_series [UnorderedSort] {α : Type} [Arith α] [StudentQuantile α]
    {series : List (Measurement α)} {confidence : α} {r : ParameterReport α}
    (h : ParameterReport.build series confidence = .ok r) {run : CollectedRun α} {config : EvaluationConfig α}
    {report : EvaluationReport α} (hreport : evaluateRun run config = .ok report)
    {K : Type} [Field K] [LinearOrder K] [IsStrictOrderedRing K] [FloorSemiring K] [SquareRoot K]
    [StudentQuantile (Extended K)] {series' : List (Measurement (Extended K))} {confidence' : Extended K}
    {r' : ParameterReport (Extended K)} (h' : ParameterReport.build series' confidence' = .ok r')
    {run' : CollectedRun (Extended K)} {config' : EvaluationConfig (Extended K)}
    {report' : EvaluationReport (Extended K)} (hreport' : evaluateRun run' config' = .ok report') :
    (r.BreaksDown series confidence ∧ ∀ truth, (r.withGroundTruth truth).BreaksDown series confidence ∧
      (r.withGroundTruth truth).errors.isSome) ∧
    (run.twr.RecombinesIn config report.twr ∧ run.exchanges.RecombinesIn config report.exchanges ∧
      run.tdoa.RecombinesIn config report.tdoa) ∧
    r'.weightedTotal = Arith.sum (series'.map Measurement.distance) ∧
    (∀ row ∈ report'.twr, row.AveragesOut) ∧ (∀ row ∈ report'.exchanges, row.AveragesOut) ∧
      ∀ row ∈ report'.tdoa, row.AveragesOut := by
  have hbreaks := breaksDown_of_build h
  exact ⟨⟨hbreaks, fun truth => ⟨hbreaks.withGroundTruth truth, rfl⟩⟩, recombinesIn_of_evaluateRun hreport,
    weightedTotal_of_build h', averagesOut_of_evaluateRun hreport'⟩

/-- Five ranges under three settings, in no order. -/
def steppedSeries {α : Type} [Arith α] : List (Measurement α) :=
  [⟨30, Arith.ofNat 102⟩, ⟨10, Arith.ofNat 90⟩, ⟨30, Arith.ofNat 106⟩, ⟨20, Arith.ofNat 99⟩, ⟨10, Arith.ofNat 94⟩]

/-- The same as the ranges of two surveyed nodes. -/
def steppedRun : CollectedRun (Extended ℚ) where
  twr := ⟨.centimeters, .ofList [((1, 2), steppedSeries)]⟩
  tdoa := .empty .meters
  exchanges := .empty .ticks
  streams := .empty

/-- The two means of two ranges count twice. -/
theorem breakdowns_split_series_stepped :
    ∃ r report r' report', ParameterReport.build steppedSeries (0.95 : Float) = .ok r ∧
      evaluateRun crowdedRun .default = .ok report ∧
      ParameterReport.build steppedSeries (finite (1429 / 2187) : Extended ℚ) = .ok r' ∧
      evaluateRun steppedRun surveyedConfig = .ok report' ∧
      r.parameters = [10, 20, 30] ∧ r.counts.sum = 5 ∧ crowdedRun.twr.RecombinesIn .default report.twr ∧
      r'.means = [finite 92, finite 99, finite 104] ∧ r'.weightedTotal = finite 491 ∧
      report'.twr.map (·.pair.byParameter.errors) = [some [finite 8, finite 1, finite 4]] ∧
      ∀ row ∈ report'.twr, row.AveragesOut := by
  have hfloat : ((ParameterReport.build steppedSeries (0.95 : Float)).map (·.parameters)) = .ok [10, 20, 30] := by
    decide +kernel
  have hcrowded : ((evaluateRun crowdedRun .default).map fun report => report.twr.length) = .ok 2 := by
    decide +kernel
  have hexact : ((ParameterReport.build steppedSeries (finite (1429 / 2187) : Extended ℚ)).map (·.means)).toOption =
      some [finite 92, finite 99, finite 104] := by
    decide +kernel
  have hstepped : ((evaluateRun steppedRun surveyedConfig).map fun report =>
      report.twr.map (·.pair.byParameter.errors)).toOption = some [some [finite 8, finite 1, finite 4]] := by
    decide +kernel
  obtain ⟨r, hr, hparameters⟩ := map_eq_ok_iff.1 hfloat
  obtain ⟨report, hreport, -⟩ := map_eq_ok_iff.1 hcrowded
  obtain ⟨r', hr', hmeans⟩ := map_eq_ok_iff.1 (toOption_eq_some_iff.1 hexact)
  obtain ⟨report', hreport', herrors⟩ := map_eq_ok_iff.1 (toOption_eq_some_iff.1 hstepped)
  obtain ⟨⟨hbreaks, -⟩, ⟨htwr, -⟩, htotal, haverages, -⟩ := breakdowns_split_series hr hreport hr' hreport'
  refine ⟨r, report, r', report', hr, hreport, hr', hreport', hparameters, hbreaks.sum_counts, htwr, hmeans, ?_,
    herrors, haverages⟩
  rw [htotal]
  decide +kernel

end UwbRanging
