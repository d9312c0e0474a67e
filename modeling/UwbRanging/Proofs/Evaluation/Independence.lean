import UwbRanging.Proofs.Evaluation.Accounting
import UwbRanging.Proofs.Evaluation.DerivedTdoa

/-!
Pairs are evaluated independently of each other. The row of a pair follows from the series of the pair, its unit and the
settings, and a derived difference from the two series that it is derived from: nothing else in a run can change them.
-/

namespace UwbRanging

open Statistics

variable {α : Type} [Arith α] {κ : Type} [KeyOrder κ]

/-- Two sets hold the same at a key: the same series, or none, in the same unit. -/
structure MeasurementSet.SameAt (s t : MeasurementSet κ α) (k : κ) : Prop where
  unit_eq : s.unit = t.unit
  series_eq : s.series? k = t.series? k

/-- The row of a key, if it has one. -/
def rowAt? [DecidableEq κ] (rows : List (PairEvaluation κ α)) (k : κ) : Option (PairEvaluation κ α) :=
  rows.find? (·.pair.key = k)

theorem MeasurementSet.SameAt.series?_evaluated_eq [UnorderedSort] {s t : MeasurementSet κ α} {k : κ} (h : s.SameAt t k)
    (config : EvaluationConfig α) : (s.evaluated config).series? k = (t.evaluated config).series? k := by
  rw [series?_evaluated, series?_evaluated, h.unit_eq, h.series_eq]

section Rows

variable [UnorderedSort] [StudentQuantile α] [DecidableEq κ] {s t : MeasurementSet κ α} {config : EvaluationConfig α}
  {truth : κ → Option α} {rows rows' : List (PairEvaluation κ α)} {k : κ}

/-- The row of a key is made of what stays of the series at the key. -/
theorem rowAt?_eq_some_iff (h : s.rowsOf config truth = .ok rows) {row : PairEvaluation κ α} :
    rowAt? rows k = some row ↔
      ∃ kept, (s.evaluated config).series? k = some kept ∧ config.rowOf truth k kept = .ok row := by
  have hfound {row : PairEvaluation κ α} (hrow : rowAt? rows k = some row) :
      ∃ kept, (s.evaluated config).series? k = some kept ∧ config.rowOf truth k kept = .ok row := by
    obtain rfl : row.pair.key = k := by simpa using List.find?_some hrow
    exact (mem_rows_iff h).1 (List.mem_of_find?_eq_some hrow)
  refine ⟨hfound, fun ⟨kept, hkept, hmade⟩ => ?_⟩
  cases hrow : rowAt? rows k with
  | none =>
      obtain ⟨rfl, -⟩ := of_rowOf hmade
      have hmem : row ∈ rows := (mem_rows_iff h).2 ⟨kept, hkept, hmade⟩
      exact absurd (List.find?_eq_none.1 hrow row hmem) (by simp)
  | some row' =>
      obtain ⟨kept', hkept', hmade'⟩ := hfound hrow
      rw [hkept] at hkept'
      cases hkept'
      rw [hmade] at hmade'
      cases hmade'
      rfl

theorem rowAt?_congr (h : s.rowsOf config truth = .ok rows) (h' : t.rowsOf config truth = .ok rows')
    (hk : s.SameAt t k) : rowAt? rows k = rowAt? rows' k := by
  refine Option.ext fun row => ?_
  rw [rowAt?_eq_some_iff h, rowAt?_eq_some_iff h', hk.series?_evaluated_eq]

end Rows

theorem MeasurementSet.SameAt.meanAt?_evaluated_eq [UnorderedSort] {s t : MeasurementSet RangeKey α} {k : RangeKey}
    (h : s.SameAt t k) (config : EvaluationConfig α) :
    (s.evaluated config).meanAt? k = (t.evaluated config).meanAt? k := by
  rw [meanAt?, meanAt?, h.series?_evaluated_eq]

/-- Wherever two runs hold the same at a key, their reports have the same row for it, or both have none; and wherever
they hold the same ranges of a node to two others, they have the same derived difference, or both have none. -/
theorem evaluateRun_pairwise [UnorderedSort] [StudentQuantile α] {config : EvaluationConfig α}
    {run run' : CollectedRun α} {report report' : EvaluationReport α} (h : evaluateRun run config = .ok report)
    (h' : evaluateRun run' config = .ok report') :
    (∀ k, run.twr.SameAt run'.twr k → rowAt? report.twr k = rowAt? report'.twr k) ∧
    (∀ k, run.exchanges.SameAt run'.exchanges k → rowAt? report.exchanges k = rowAt? report'.exchanges k) ∧
    (∀ k, run.tdoa.SameAt run'.tdoa k → rowAt? report.tdoa k = rowAt? report'.tdoa k) ∧
    ∀ n a b, run.twr.SameAt run'.twr (n, a) → run.twr.SameAt run'.twr (n, b) →
      report.derivedTdoa.get? (n, a, b) = report'.derivedTdoa.get? (n, a, b) := by
  obtain ⟨twr, exchanges, tdoa, htwr, hexchanges, htdoa, rfl⟩ := evaluateRun_ok h
  obtain ⟨twr', exchanges', tdoa', htwr', hexchanges', htdoa', rfl⟩ := evaluateRun_ok h'
  refine ⟨fun k => rowAt?_congr htwr htwr', fun k => rowAt?_congr hexchanges hexchanges',
    fun k => rowAt?_congr htdoa htdoa', fun n a b ha hb => ?_⟩
  simp only [CollectedRun.reportOf, get?_tdoaFromMeanRanges, ha.meanAt?_evaluated_eq, hb.meanAt?_evaluated_eq]

/-- A run that agrees with the crowded one in two series of ranges. -/
def quieterRun : CollectedRun Float where
  twr := ⟨.centimeters, .ofList [((1, 2), [⟨0, 100⟩, ⟨0, 110⟩, ⟨7, 900⟩]), ((1, 4), [⟨3, 40⟩]), ((3, 1), [⟨0, 1 / 0⟩])]⟩
  tdoa := ⟨.meters, .ofList [((1, 2, 3), [⟨0, 2⟩])]⟩
  exchanges := .empty .meters
  streams := .empty

theorem evaluateRun_pairwise_crowded_quieter :
    ∃ report report', evaluateRun crowdedRun .default = .ok report ∧ evaluateRun quieterRun .default = .ok report' ∧
      crowdedRun.twr.SameAt quieterRun.twr (1, 2) ∧ crowdedRun.twr.SameAt quieterRun.twr (1, 4) ∧
      rowAt? report.twr (1, 2) = rowAt? report'.twr (1, 2) ∧
      report.derivedTdoa.get? (1, 2, 4) = report'.derivedTdoa.get? (1, 2, 4) := by
  obtain ⟨report, hreport⟩ := exists_eq_ok (x := evaluateRun crowdedRun .default) (by decide +kernel)
  obtain ⟨report', hreport'⟩ := exists_eq_ok (x := evaluateRun quieterRun .default) (by decide +kernel)
  have hnear : crowdedRun.twr.SameAt quieterRun.twr (1, 2) := ⟨rfl, rfl⟩
  have hfar : crowdedRun.twr.SameAt quieterRun.twr (1, 4) := ⟨rfl, rfl⟩
  obtain ⟨hrows, -, -, hderived⟩ := evaluateRun_pairwise hreport hreport'
  exact ⟨report, report', hreport, hreport', hnear, hfar, hrows _ hnear, hderived 1 2 4 hnear hfar⟩

end UwbRanging
