import Mathlib.Analysis.InnerProductSpace.PiL2
import UwbRanging.Proofs.Evaluation.Differences
import UwbRanging.Proofs.Evaluation.Failure
import UwbRanging.Proofs.Exact.Real
import UwbRanging.Proofs.Statistics.Outlier

/-!
True distances over the real numbers are those of points in space. They are the same in both directions, the true
distance difference at a listener is one of two true distances and at most the distance of the anchors, and ranges
without error give derived differences without error.
-/

namespace UwbRanging

open Statistics Extended

namespace Position

def toExtended (p : Position ℝ) : Position (Extended ℝ) :=
  ⟨finite p.x, finite p.y, finite p.z⟩

/-- Where the node stands in space. -/
def point (p : Position ℝ) : EuclideanSpace ℝ (Fin 3) :=
  WithLp.toLp _ ![p.x, p.y, p.z]

theorem dist_point (p q : Position ℝ) : dist p.point q.point =
    √((p.x - q.x) * (p.x - q.x) + (p.y - q.y) * (p.y - q.y) + (p.z - q.z) * (p.z - q.z)) := by
  rw [EuclideanSpace.dist_eq, Fin.sum_univ_three]
  simp [point, Real.dist_eq, sq]

theorem distanceTo_real (p q : Position ℝ) : p.toExtended.distanceTo q.toExtended = finite (dist p.point q.point) := by
  have hnonneg := add_nonneg (add_nonneg (mul_self_nonneg (p.x - q.x)) (mul_self_nonneg (p.y - q.y)))
    (mul_self_nonneg (p.z - q.z))
  rw [dist_point, ← sqrt_real hnonneg]
  simp only [distanceTo, toExtended, Arith.square, finite_sub_finite, finite_mul_finite, finite_add_finite]

theorem tdoa_real (l p q : Position ℝ) :
    l.toExtended.tdoa p.toExtended q.toExtended = finite (dist l.point p.point - dist l.point q.point) := by
  rw [tdoa, distanceTo_real, distanceTo_real, finite_sub_finite]

end Position

/-- Nothing but the truth is without error. -/
theorem eq_of_absoluteError_eq_zero {K : Type} [Field K] [LinearOrder K] [IsStrictOrderedRing K] [FloorSemiring K]
    [SquareRoot K] {m : Extended K} {t : K} (h : absoluteError m (finite t) = finite 0) : m = finite t := by
  cases m with
  | finite x =>
      rw [absoluteError, finite_sub_finite, abs_finite, Extended.finite.injEq, abs_eq_zero, sub_eq_zero] at h
      rw [h]
  | infinite s => cases h
  | nan => cases h

/-- The true distance of two positions in the unit of the report. -/
noncomputable def EvaluationConfig.trueDistance (config : EvaluationConfig (Extended ℝ)) (p q : Position ℝ) : ℝ :=
  dist p.point q.point * LengthUnit.meters.ratioTo config.rangeUnit

section Truths

variable {config : EvaluationConfig (Extended ℝ)}

theorem trueDistance_comm (p q : Position ℝ) : config.trueDistance p q = config.trueDistance q p := by
  rw [EvaluationConfig.trueDistance, EvaluationConfig.trueDistance, dist_comm]

theorem trueDistance_nonneg (p q : Position ℝ) : 0 ≤ config.trueDistance p q :=
  mul_nonneg dist_nonneg (LengthUnit.ratioTo_pos _ _).le

/-- The triangle inequality at the listener. -/
theorem abs_trueDistance_sub_le (l p q : Position ℝ) :
    |config.trueDistance l p - config.trueDistance l q| ≤ config.trueDistance p q := by
  have hfactor : (0 : ℝ) ≤ LengthUnit.meters.ratioTo config.rangeUnit := (LengthUnit.ratioTo_pos _ _).le
  calc |config.trueDistance l p - config.trueDistance l q|
      = |dist p.point l.point - dist q.point l.point| * LengthUnit.meters.ratioTo config.rangeUnit := by
        rw [EvaluationConfig.trueDistance, EvaluationConfig.trueDistance, ← sub_mul, abs_mul, abs_of_nonneg hfactor,
          dist_comm l.point, dist_comm l.point]
    _ ≤ config.trueDistance p q := mul_le_mul_of_nonneg_right (abs_dist_sub_le _ _ _) hfactor

variable {l a b : NodeId} {pl pa pb : Position ℝ}

theorem groundTruthFor_real (ha : config.positions.get? a = some pa.toExtended)
    (hb : config.positions.get? b = some pb.toExtended) :
    config.groundTruthFor a b = some (finite (config.trueDistance pa pb)) := by
  rw [EvaluationConfig.groundTruthFor, ha, hb]
  simp only [Position.distanceTo_real, LengthUnit.factorTo_eq, finite_mul_finite]
  rfl

theorem tdoaTruthFor_real (hl : config.positions.get? l = some pl.toExtended)
    (ha : config.positions.get? a = some pa.toExtended) (hb : config.positions.get? b = some pb.toExtended) :
    config.tdoaTruthFor l a b = some (finite (config.trueDistance pl pa - config.trueDistance pl pb)) := by
  rw [EvaluationConfig.tdoaTruthFor, hl, ha, hb, EvaluationConfig.trueDistance, EvaluationConfig.trueDistance,
    ← sub_mul, ← finite_mul_finite, ← Position.tdoa_real, ← LengthUnit.factorTo_eq]
  rfl

variable [UnorderedSort] [StudentQuantile (Extended ℝ)]

/-- The mean of a row without error is the true distance. -/
theorem mean_of_error_eq_zero {s : MeasurementSet RangeKey (Extended ℝ)}
    {rows : List (PairEvaluation RangeKey (Extended ℝ))} (h : s.rowsOf config config.rangeTruth = .ok rows)
    {row : PairEvaluation RangeKey (Extended ℝ)} (hrow : row ∈ rows) (hkey : row.pair.key = (a, b)) {t : ℝ}
    (htruth : config.groundTruthFor a b = some (finite t)) (herror : row.error = some (finite 0)) :
    row.pair.summary.mean = finite t := by
  obtain ⟨-, hcompared⟩ := truth_of_mem_rows h hrow
  rw [hkey, EvaluationConfig.rangeTruth, htruth, herror] at hcompared
  exact eq_of_absoluteError_eq_zero (Option.some.inj hcompared).symm

/-- What is known of the truth about three surveyed nodes fits together, and a report with ranges of the first to both
others that are without error derives the true distance difference. -/
theorem truths_fit_together (hl : config.positions.get? l = some pl.toExtended)
    (ha : config.positions.get? a = some pa.toExtended) (hb : config.positions.get? b = some pb.toExtended) :
    ∃ la lb ab : ℝ,
      (config.groundTruthFor l a = some (finite la) ∧ config.groundTruthFor l b = some (finite lb)) ∧
      (config.groundTruthFor a b = some (finite ab) ∧ config.groundTruthFor b a = some (finite ab) ∧ 0 ≤ ab) ∧
      (config.tdoaTruthFor l a b = some (finite (la - lb)) ∧ config.tdoaTruthFor l b a = some (finite (-(la - lb))) ∧
        |la - lb| ≤ ab) ∧
      ∀ run report, evaluateRun run config = .ok report →
        (∀ row ∈ report.tdoa, row.pair.key = (l, a, b) → row.groundTruth = config.tdoaTruthFor l a b) ∧
        (a ≠ b → ∀ x ∈ report.twr, x.pair.key = (l, a) → x.error = some (finite 0) →
          ∀ y ∈ report.twr, y.pair.key = (l, b) → y.error = some (finite 0) →
            report.derivedTdoa.get? (l, a, b) = config.tdoaTruthFor l a b) := by
  have htruth := tdoaTruthFor_real hl ha hb
  refine ⟨config.trueDistance pl pa, config.trueDistance pl pb, config.trueDistance pa pb,
    ⟨groundTruthFor_real hl ha, groundTruthFor_real hl hb⟩,
    ⟨groundTruthFor_real ha hb, ?_, trueDistance_nonneg pa pb⟩,
    ⟨htruth, ?_, abs_trueDistance_sub_le pl pa pb⟩, ?_⟩
  · rw [trueDistance_comm]
    exact groundTruthFor_real hb ha
  · rw [neg_sub]
    exact tdoaTruthFor_real hl hb ha
  · intro run report h
    obtain ⟨twr, exchanges, tdoa, htwr, -, htdoa, rfl⟩ := evaluateRun_ok h
    refine ⟨fun row hrow hkey => ?_, fun hab x hx hxkey hxerror y hy hykey hyerror => ?_⟩
    · rw [(truth_of_mem_rows htdoa hrow).1, hkey]
      rfl
    · have hxmean := mean_of_error_eq_zero htwr hx hxkey (groundTruthFor_real hl ha) hxerror
      have hymean := mean_of_error_eq_zero htwr hy hykey (groundTruthFor_real hl hb) hyerror
      refine (get?_derived_eq_some_iff htwr l a b _).2 ⟨hab, x, hx, y, hy, hxkey, hykey, ?_⟩ |>.trans htruth.symm
      rw [hxmean, hymean, finite_sub_finite]

end Truths

/-- Of a single measurement the distance stays, in the unit of the report. -/
theorem keptOf_singleton [UnorderedSort] {config : EvaluationConfig (Extended ℝ)} {t : ℝ}
    (hthreshold : config.threshold = finite t) (hpos : 0 < t) (unit : LengthUnit) (p : UInt32) (x : ℝ) :
    config.keptOf unit [⟨p, finite x⟩] = [⟨p, finite (x * unit.ratioTo config.rangeUnit)⟩] := by
  have hclose : isClose (finite t) (finite (x * unit.ratioTo config.rangeUnit))
      (finite (x * unit.ratioTo config.rangeUnit)) = true := by
    rw [isClose_finite, sub_self, abs_zero, decide_eq_true hpos]
  rw [EvaluationConfig.keptOf, List.map_singleton, LengthUnit.factorTo_eq, finite_mul_finite, hthreshold]
  have hmedian : median ([(⟨p, finite (x * unit.ratioTo config.rangeUnit)⟩ : Measurement (Extended ℝ))].map
      Measurement.distance) = .ok (finite (x * unit.ratioTo config.rangeUnit)) := median_singleton _
  rw [keptClose_of_median hmedian]
  exact List.filter_cons_of_pos hclose

/-- Three nodes at the corners of a room, the second five meters from the first and the third twelve. -/
noncomputable def cornerConfig : EvaluationConfig (Extended ℝ) where
  threshold := Arith.ofNat 50
  confidence := Arith.ratio 1 2
  minCount := 0
  rangeUnit := .centimeters
  rangeScale := Arith.one
  estimator := .asymmetric
  groundTruth := none
  positions := .ofList [(1, ⟨Arith.ofNat 0, Arith.ofNat 0, Arith.ofNat 0⟩),
    (2, ⟨Arith.ofNat 3, Arith.ofNat 4, Arith.ofNat 0⟩), (3, ⟨Arith.ofNat 0, Arith.ofNat 0, Arith.ofNat 12⟩)]
  window := 5
  parameterStep := none

/-- The first ranges with the two others without error, in meters. -/
noncomputable def cornerRun : CollectedRun (Extended ℝ) where
  twr := ⟨.meters, .ofList [((1, 2), [⟨0, Arith.ofNat 5⟩]), ((1, 3), [⟨0, Arith.ofNat 12⟩])]⟩
  tdoa := .empty .meters
  exchanges := .empty .ticks
  streams := .empty

theorem ratioTo_corner : LengthUnit.meters.ratioTo cornerConfig.rangeUnit = (100 : ℝ) := by
  change (1 : ℝ) / (1 / 100) = 100
  norm_num

/-- In whole meters the distance is the root of a square. -/
theorem trueDistance_corner {p q : Position ℝ} {d : ℝ} (hd : 0 ≤ d)
    (h : (p.x - q.x) * (p.x - q.x) + (p.y - q.y) * (p.y - q.y) + (p.z - q.z) * (p.z - q.z) = d * d) :
    cornerConfig.trueDistance p q = d * 100 := by
  rw [EvaluationConfig.trueDistance, Position.dist_point, h, Real.sqrt_mul_self hd, ratioTo_corner]

/-- The ranges of the run have rows without error. -/
theorem exists_row_corner {rows : List (PairEvaluation RangeKey (Extended ℝ))}
    (h : cornerRun.twr.rowsOf cornerConfig cornerConfig.rangeTruth = .ok rows) {k : RangeKey} {x : ℝ}
    (hseries : cornerRun.twr.series? k = some [⟨0, finite x⟩])
    (htruth : cornerConfig.rangeTruth k = some (finite (x * 100))) :
    ∃ row ∈ rows, row.pair.key = k ∧ row.error = some (finite 0) := by
  have hkept : (cornerRun.twr.evaluated cornerConfig).series? k = some [⟨0, finite (x * 100)⟩] := by
    have hpos : (0 : ℝ) < (50 : ℕ) := Nat.cast_pos.2 (Nat.succ_pos 49)
    rw [MeasurementSet.series?_evaluated, hseries, Option.map_some, keptOf_singleton rfl hpos, ← ratioTo_corner]
    rfl
  obtain ⟨row, hrow, hmade⟩ := exists_row h hkept
  have hmean : finite (x * 100) = row.pair.summary.mean := by
    have hmean := mean_of_rowOf hmade
    change mean ([x * 100].map finite) = _ at hmean
    rw [mean_finite (List.cons_ne_nil _ _), List.sum_singleton, List.length_singleton, Nat.cast_one, div_one] at hmean
    exact Except.ok.inj hmean
  refine ⟨row, hrow, (of_rowOf hmade).1, ?_⟩
  rw [(truth_of_rowOf hmade).2, htruth, ← hmean, Option.map_some, absoluteError, finite_sub_finite, abs_finite,
    sub_self, abs_zero]

theorem exists_report_corner : ∃ report, evaluateRun cornerRun cornerConfig = .ok report := by
  have hhalf : cornerConfig.confidence = finite (1 / 2) := by
    rw [cornerConfig, ratio_eq 1 two_ne_zero, Nat.cast_one, Nat.cast_ofNat]
  have hconfidence : Arith.isProbability cornerConfig.confidence = true := by
    rw [hhalf]
    exact isProbability_real.2 ⟨by norm_num, by norm_num⟩
  have hlevel : Arith.isProbability ((Arith.one + cornerConfig.confidence) / Arith.ofNat 2) = true := by
    rw [hhalf, level_real]
    exact isProbability_real.2 ⟨by norm_num, by norm_num⟩
  have hlength : cornerRun.SeriesAtMost (2 ^ 32) := by decide
  have hshort : cornerRun.SeriesAtMost insertionLimit := by decide
  exact exists_evaluateRun (fun _ _ hp hdof => exists_quantile_real hp hdof) (fun _ => hlevel) hlength
    (hshort.filterableFor cornerConfig) hconfidence

/-- The second corner is seven meters nearer, which is less than the thirteen between the two. -/
theorem truths_fit_together_corner :
    ∃ report, evaluateRun cornerRun cornerConfig = .ok report ∧
      report.derivedTdoa.get? (1, 2, 3) = some (finite (-700)) ∧
      cornerConfig.tdoaTruthFor 1 2 3 = some (finite (-700)) ∧
        cornerConfig.groundTruthFor 2 3 = some (finite 1300) := by
  obtain ⟨report, hreport⟩ := exists_report_corner
  have hfirst : cornerConfig.positions.get? 1 = some (Position.toExtended ⟨(0 : ℕ), (0 : ℕ), (0 : ℕ)⟩) := rfl
  have hsecond : cornerConfig.positions.get? 2 = some (Position.toExtended ⟨(3 : ℕ), (4 : ℕ), (0 : ℕ)⟩) := rfl
  have hthird : cornerConfig.positions.get? 3 = some (Position.toExtended ⟨(0 : ℕ), (0 : ℕ), (12 : ℕ)⟩) := rfl
  have hla : cornerConfig.groundTruthFor 1 2 = some (finite (((5 : ℕ) : ℝ) * 100)) := by
    rw [groundTruthFor_real hfirst hsecond, trueDistance_corner (Nat.cast_nonneg 5) (by norm_num)]
  have hlb : cornerConfig.groundTruthFor 1 3 = some (finite (((12 : ℕ) : ℝ) * 100)) := by
    rw [groundTruthFor_real hfirst hthird, trueDistance_corner (Nat.cast_nonneg 12) (by norm_num)]
  have hab : cornerConfig.groundTruthFor 2 3 = some (finite (((13 : ℕ) : ℝ) * 100)) := by
    rw [groundTruthFor_real hsecond hthird, trueDistance_corner (Nat.cast_nonneg 13) (by norm_num)]
  obtain ⟨la, lb, _, ⟨hla', hlb'⟩, -, ⟨htdoa, -⟩, hreported⟩ := truths_fit_together hfirst hsecond hthird
  have htruth : cornerConfig.tdoaTruthFor 1 2 3 = some (finite (-700)) := by
    rw [hla] at hla'
    rw [hlb] at hlb'
    cases hla'
    cases hlb'
    rw [htdoa]
    norm_num
  obtain ⟨twr, exchanges, tdoa, htwr, -, -, rfl⟩ := evaluateRun_ok hreport
  obtain ⟨x, hx, hxkey, hxerror⟩ := exists_row_corner htwr (k := (1, 2)) rfl hla
  obtain ⟨y, hy, hykey, hyerror⟩ := exists_row_corner htwr (k := (1, 3)) rfl hlb
  refine ⟨_, hreport, ?_, htruth, by rw [hab]; norm_num⟩
  rw [← htruth]
  exact (hreported _ _ hreport).2 (by decide) x hx hxkey hxerror y hy hykey hyerror

end UwbRanging
