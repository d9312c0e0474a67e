import UwbRanging.Proofs.Evaluation.Activity
import UwbRanging.Proofs.Evaluation.DerivedTdoa
import UwbRanging.Proofs.Evaluation.Groups
import UwbRanging.Proofs.Evaluation.Rows
import UwbRanging.Proofs.Exact.Length
import UwbRanging.Proofs.Exact.Rational
import UwbRanging.Proofs.Statistics.Order

/-!
In exact arithmetic a report does not depend on the order in which the measurements arrived. What stays of a series is
the same up to order, and everything that is computed from it is the same.
-/

namespace UwbRanging

open Statistics Extended

section Runs

variable {α : Type} {κ : Type} [KeyOrder κ]

/-- Two sets have the same unit and the same keys, and at each key the same measurements in an order of their own. -/
structure MeasurementSet.Reordered (s t : MeasurementSet κ α) : Prop where
  unit_eq : s.unit = t.unit
  entries_perm : List.Forall₂ (fun d e => d.1 = e.1 ∧ d.2.Perm e.2) s.series.entries t.series.entries

structure CollectedRun.Reordered (run run' : CollectedRun α) : Prop where
  twr : run.twr.Reordered run'.twr
  exchanges : run.exchanges.Reordered run'.exchanges
  tdoa : run.tdoa.Reordered run'.tdoa

/-- Every measured distance is a number. -/
def MeasurementSet.AllFinite [Arith α] (s : MeasurementSet κ α) : Prop :=
  ∀ d ∈ s.series.entries, ∀ m ∈ d.2, Arith.isFinite m.distance = true

instance [Arith α] (s : MeasurementSet κ α) : Decidable s.AllFinite :=
  inferInstanceAs (Decidable (∀ d ∈ s.series.entries, ∀ m ∈ d.2, Arith.isFinite m.distance = true))

structure CollectedRun.AllFinite [Arith α] (run : CollectedRun α) : Prop where
  twr : run.twr.AllFinite
  exchanges : run.exchanges.AllFinite
  tdoa : run.tdoa.AllFinite

theorem MeasurementSet.Reordered.entries_finite [Arith α] {s t : MeasurementSet κ α} (h : s.Reordered t)
    (hfinite : s.AllFinite) :
    List.Forall₂ (fun d e => (∀ m ∈ d.2, Arith.isFinite m.distance = true) ∧ d.1 = e.1 ∧ d.2.Perm e.2)
      s.series.entries t.series.entries :=
  (List.forall₂_and_left _ _).2 ⟨hfinite, h.entries_perm⟩

theorem MeasurementSet.Reordered.allFinite [Arith α] {s t : MeasurementSet κ α} (h : s.Reordered t)
    (hfinite : s.AllFinite) : t.AllFinite := by
  have hentries : List.Forall₂ (fun e _ => (∀ m ∈ e.2, Arith.isFinite m.distance = true) ∧ True) t.series.entries
      s.series.entries := by
    refine .flip ((h.entries_finite hfinite).imp ?_)
    rintro d e ⟨hfinite, -, hperm⟩
    exact ⟨fun m hm => hfinite m (hperm.mem_iff.2 hm), trivial⟩
  exact ((List.forall₂_and_left _ _).1 hentries).1

end Runs

theorem flatMap_perm_of_forall₂ {β γ δ : Type} {R : β → γ → Prop} {f : β → List δ} {g : γ → List δ} {xs : List β}
    {ys : List γ} (h : List.Forall₂ R xs ys) (hR : ∀ x y, R x y → (f x).Perm (g y)) :
    (xs.flatMap f).Perm (ys.flatMap g) := by
  induction h with
  | nil => exact .refl _
  | cons hxy _ ih => exact (hR _ _ hxy).append ih

theorem activity?_reordered {α : Type} [Arith α] {run run' : CollectedRun α} (h : run.Reordered run')
    (step : Option α) : run.activity? step = run'.activity? step := by
  have hreported : List.Forall₂ (fun d e : NodeId × List (Measurement α) => d.1 = e.1 ∧ d.2.Perm e.2)
      run.reportedSeries run'.reportedSeries := by
    refine List.rel_append (List.rel_map ?_ h.twr.entries_perm) (List.rel_map ?_ h.tdoa.entries_perm)
    all_goals
      rintro ⟨k, series⟩ ⟨k', series'⟩ ⟨rfl, hperm⟩
      exact ⟨rfl, hperm⟩
  have hextent : run.parameterExtent? = run'.parameterExtent? := by
    refine CollectedRun.extent?_perm (flatMap_perm_of_forall₂ hreported ?_)
    rintro ⟨node, series⟩ ⟨node', series'⟩ ⟨-, hperm⟩
    exact hperm.map _
  have hcounts : run.nodeCounts = run'.nodeCounts := by
    refine List.rel_foldl (P := Eq) ?_ rfl hreported
    rintro counts _ rfl ⟨node, series⟩ ⟨node', series'⟩ ⟨rfl, hperm⟩
    exact congrArg (counts.upsert node) (funext fun n => congrArg (n.getD 0 + ·) hperm.length_eq)
  rw [CollectedRun.activity?_eq, CollectedRun.activity?_eq, hextent, hcounts]

section Rows

variable {K : Type} [Field K] [LinearOrder K] [FloorSemiring K] [SquareRoot K] [StudentQuantile (Extended K)]
  {series series' : List (Measurement (Extended K))}

theorem build_perm (h : series.Perm series') (confidence : Extended K) :
    ParameterReport.build series confidence = ParameterReport.build series' confidence := by
  have hgroups : List.Forall₂ (fun d e => d.1 = e.1 ∧ d.2.Perm e.2) (groupByParameter series).entries
      (groupByParameter series').entries := by
    refine SortedMap.forall₂_entries fun p => ?_
    simp only [get?_groupByParameter, (h.map Measurement.parameter).mem_iff]
    split
    · exact .some ((h.filter _).map _)
    · exact .none
  rw [build_eq, build_eq]
  refine congrArg (Except.map _) (mapM_eq_mapM_of_forall₂ hgroups ?_)
  rintro ⟨p, distances⟩ ⟨p', distances'⟩ ⟨rfl, hperm⟩
  rw [summarize_perm hperm]

theorem rowOf_perm {κ : Type} (config : EvaluationConfig (Extended K)) (truth : κ → Option (Extended K)) (k : κ)
    (h : series.Perm series') : config.rowOf truth k series = config.rowOf truth k series' := by
  simp only [EvaluationConfig.rowOf, summarize_perm (h.map Measurement.distance), build_perm h]

end Rows

section Sets

variable {K : Type} [Field K] [LinearOrder K] [FloorSemiring K] [SquareRoot K] [IsStrictOrderedRing K] {κ : Type}
  [KeyOrder κ] [UnorderedSort] {series series' : List (Measurement (Extended K))} {s t : MeasurementSet κ (Extended K)}

/-- Numbers can always be sorted. -/
theorem MeasurementSet.AllFinite.filterableFor (hfinite : s.AllFinite) (config : EvaluationConfig (Extended K)) :
    s.FilterableFor config := by
  refine filterableFor_of_isSortable fun d hd => isSortable_of_finite fun x hx => ?_
  obtain ⟨m, hm, rfl⟩ := List.mem_map.1 hx
  exact LengthUnit.isFinite_mul_factorTo (hfinite d hd m hm) _ _

/-- What stays of a series is the same up to order: its median is the same. -/
theorem keptOf_perm (config : EvaluationConfig (Extended K)) (unit : LengthUnit) (h : series.Perm series')
    (hfinite : ∀ m ∈ series, Arith.isFinite m.distance = true) :
    (config.keptOf unit series).Perm (config.keptOf unit series') := by
  let convert (m : Measurement (Extended K)) : Measurement (Extended K) :=
    { m with distance := m.distance * unit.factorTo config.rangeUnit }
  have hconverted : (series.map convert).Perm (series'.map convert) := h.map convert
  have hmedian : median ((series.map convert).map Measurement.distance) =
      median ((series'.map convert).map Measurement.distance) := by
    refine median_perm (hconverted.map _) fun x hx => ?_
    simp only [List.map_map, List.mem_map, Function.comp_apply] at hx
    obtain ⟨m, hm, rfl⟩ := hx
    exact LengthUnit.isFinite_mul_factorTo (hfinite m hm) _ _
  change (keptClose config.threshold (series.map convert)).Perm (keptClose config.threshold (series'.map convert))
  rw [keptClose, keptClose, closeMeasurements, closeMeasurements, hmedian]
  cases median ((series'.map convert).map Measurement.distance) with
  | error interruption => cases interruption <;> exact .refl _
  | ok middle => exact hconverted.filter _

theorem MeasurementSet.Reordered.evaluated (h : s.Reordered t) (hfinite : s.AllFinite)
    (config : EvaluationConfig (Extended K)) : (s.evaluated config).Reordered (t.evaluated config) where
  unit_eq := rfl
  entries_perm := by
    rw [entries_evaluated, entries_evaluated]
    refine List.rel_filter ?_ (List.rel_map ?_ (h.entries_finite hfinite))
    · rintro d e ⟨-, hperm⟩
      simp only [hperm.length_eq]
    · rintro d e ⟨hfinite, hkey, hperm⟩
      exact ⟨hkey, h.unit_eq ▸ keptOf_perm config s.unit hperm hfinite⟩

theorem outlierCount_reordered (h : s.Reordered t) (hfinite : s.AllFinite) (config : EvaluationConfig (Extended K)) :
    s.outlierCount config = t.outlierCount config := by
  refine congrArg List.sum (map_eq_map_of_forall₂ (h.entries_finite hfinite) ?_)
  rintro d e ⟨hfinite, -, hperm⟩
  rw [hperm.length_eq, h.unit_eq, (keptOf_perm config t.unit hperm hfinite).length_eq]

theorem prunedCount_reordered (h : s.Reordered t) (hfinite : s.AllFinite) (config : EvaluationConfig (Extended K)) :
    s.prunedCount config = t.prunedCount config := by
  have hsize : s.size = t.size := h.entries_perm.length_eq
  have hkept : (s.evaluated config).size = (t.evaluated config).size :=
    (h.evaluated hfinite config).entries_perm.length_eq
  rw [MeasurementSet.prunedCount, MeasurementSet.prunedCount, hsize, hkept]

theorem rowsOf_reordered [StudentQuantile (Extended K)] (h : s.Reordered t) (hfinite : s.AllFinite)
    (config : EvaluationConfig (Extended K)) (truth : κ → Option (Extended K)) :
    s.rowsOf config truth = t.rowsOf config truth := by
  rw [MeasurementSet.rowsOf, MeasurementSet.rowsOf, if_pos (hfinite.filterableFor config),
    if_pos ((h.allFinite hfinite).filterableFor config)]
  refine congrArg (Except.mapError _) (mapM_eq_mapM_of_forall₂ (h.evaluated hfinite config).entries_perm ?_)
  rintro ⟨k, series⟩ ⟨k', series'⟩ ⟨rfl, hperm⟩
  exact rowOf_perm config truth k hperm

end Sets

theorem meanRanges_reordered {K : Type} [Field K] [LinearOrder K] [FloorSemiring K] [SquareRoot K]
    {s t : MeasurementSet RangeKey (Extended K)} (h : s.Reordered t) : meanRanges s = meanRanges t := by
  rw [meanRanges_eq, meanRanges_eq]
  refine List.rel_foldl (P := Eq) ?_ rfl h.entries_perm
  rintro means _ rfl ⟨k, series⟩ ⟨k', series'⟩ ⟨rfl, hperm⟩
  simp only [addMean, mean_perm (hperm.map Measurement.distance)]

/-- Runs with the same measurements have the same report, or fail in the same way, however the measurements of each
series are ordered. -/
theorem evaluateRun_reordered {K : Type} [Field K] [LinearOrder K] [IsStrictOrderedRing K] [FloorSemiring K]
    [SquareRoot K] [UnorderedSort] [StudentQuantile (Extended K)] {run run' : CollectedRun (Extended K)}
    (h : run.Reordered run') (hfinite : run.AllFinite) (config : EvaluationConfig (Extended K)) :
    evaluateRun run config = evaluateRun run' config := by
  have hreport : run.reportOf config = run'.reportOf config := by
    funext twr exchanges tdoa
    simp only [CollectedRun.reportOf, meanRanges_reordered (h.twr.evaluated hfinite.twr config),
      outlierCount_reordered h.twr hfinite.twr, outlierCount_reordered h.exchanges hfinite.exchanges,
      outlierCount_reordered h.tdoa hfinite.tdoa, prunedCount_reordered h.twr hfinite.twr,
      prunedCount_reordered h.exchanges hfinite.exchanges, prunedCount_reordered h.tdoa hfinite.tdoa,
      activity?_reordered h]
  rw [evaluateRun_eq, evaluateRun_eq, rowsOf_reordered h.twr hfinite.twr, rowsOf_reordered h.tdoa hfinite.tdoa,
    rowsOf_reordered h.exchanges hfinite.exchanges, hreport]

deriving instance DecidableEq for Measurement

/-- Two surveyed nodes a meter apart, and a level of confidence whose quantile is rational. -/
def surveyedConfig : EvaluationConfig (Extended ℚ) where
  threshold := finite 50
  confidence := finite (1429 / 2187)
  minCount := 0
  rangeUnit := .centimeters
  rangeScale := finite 1
  estimator := .asymmetric
  groundTruth := some (finite 45)
  positions := .ofList [(1, ⟨finite 0, finite 0, finite 0⟩), (2, ⟨finite (3 / 5), finite (4 / 5), finite 0⟩)]
  window := 5
  parameterStep := none

/-- Ten ranges of one pair with ties at both middle values and an outlier, a single range, and an exchange in ticks. -/
def tiedRun : CollectedRun (Extended ℚ) where
  twr := ⟨.centimeters, .ofList [
    ((1, 2), [⟨0, finite 99⟩, ⟨0, finite 101⟩, ⟨0, finite 101⟩, ⟨7, finite 900⟩, ⟨0, finite 100⟩, ⟨0, finite 99⟩,
      ⟨0, finite 99⟩, ⟨0, finite 101⟩, ⟨0, finite 101⟩, ⟨0, finite 99⟩]),
    ((1, 3), [⟨3, finite 40⟩])]⟩
  tdoa := .empty .meters
  exchanges := ⟨.ticks, .ofList [((2, 1), [⟨0, finite 213⟩])]⟩
  streams := .empty

/-- The same with the ranges of the pair in another order. -/
def shuffledRun : CollectedRun (Extended ℚ) :=
  { tiedRun with
    twr := ⟨.centimeters, .ofList [
      ((1, 2), [⟨7, finite 900⟩, ⟨0, finite 101⟩, ⟨0, finite 99⟩, ⟨0, finite 101⟩, ⟨0, finite 99⟩, ⟨0, finite 101⟩,
        ⟨0, finite 100⟩, ⟨0, finite 99⟩, ⟨0, finite 99⟩, ⟨0, finite 101⟩]),
      ((1, 3), [⟨3, finite 40⟩])]⟩ }

/-- Both runs find the true distance of the pair on average, and drop the outlier. -/
theorem evaluateRun_reordered_tied_shuffled :
    tiedRun.Reordered shuffledRun ∧ tiedRun.AllFinite ∧
      evaluateRun tiedRun surveyedConfig = evaluateRun shuffledRun surveyedConfig ∧
      ((evaluateRun tiedRun surveyedConfig).map fun report => (report.twr.map (·.error), report.outliers)) =
        .ok ([some (finite 0), some (finite 5)], 1) := by
  have hreordered : tiedRun.Reordered shuffledRun := ⟨⟨rfl, by decide +kernel⟩, ⟨rfl, by decide +kernel⟩, ⟨rfl, .nil⟩⟩
  have hfinite : tiedRun.AllFinite := ⟨by decide +kernel, by decide +kernel, by decide +kernel⟩
  refine ⟨hreordered, hfinite, evaluateRun_reordered hreordered hfinite _, ?_⟩
  refine toOption_eq_some_iff.1 ?_
  decide +kernel

end UwbRanging
