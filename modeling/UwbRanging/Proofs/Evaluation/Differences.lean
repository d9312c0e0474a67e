import Mathlib.Data.Finset.Prod
import UwbRanging.Proofs.Evaluation.Accounting
import UwbRanging.Proofs.Evaluation.DerivedTdoa
import UwbRanging.Proofs.Evaluation.Units

/-!
The derived distance differences are those of the reported mean ranges. A node with ranges to several others has one for
each two of them and each order, and in exact arithmetic differences can be turned round and put together.
-/

namespace UwbRanging

open Statistics Extended

section Rows

variable {α : Type}

/-- The other nodes of all rows of a node. -/
def reportedNeighbors (rows : List (PairEvaluation RangeKey α)) (node : NodeId) : List NodeId :=
  ((rows.map (·.pair.key)).filter (·.1 = node)).map Prod.snd

theorem mem_reportedNeighbors_iff {rows : List (PairEvaluation RangeKey α)} {node other : NodeId} :
    other ∈ reportedNeighbors rows node ↔ ∃ row ∈ rows, row.pair.key = (node, other) := by
  simp only [reportedNeighbors, List.mem_map, List.mem_filter, decide_eq_true_eq]
  constructor
  · rintro ⟨_, ⟨⟨row, hrow, rfl⟩, rfl⟩, rfl⟩
    exact ⟨row, hrow, rfl⟩
  · rintro ⟨row, hrow, hkey⟩
    exact ⟨row.pair.key, ⟨⟨row, hrow, rfl⟩, by rw [hkey]⟩, by rw [hkey]⟩

variable [Arith α]

/-- Differences that are derived from some rows: at a node and two others stands the mean of the first row minus that of
the second, and nothing stands where one of the two rows is missing. -/
structure DerivedFrom (rows : List (PairEvaluation RangeKey α)) (derived : SortedMap TdoaKey α) : Prop where
  get?_eq_some_iff : ∀ n a b d, derived.get? (n, a, b) = some d ↔
    a ≠ b ∧ ∃ x ∈ rows, ∃ y ∈ rows, x.pair.key = (n, a) ∧ y.pair.key = (n, b) ∧
      x.pair.summary.mean - y.pair.summary.mean = d
  neighbors_nodup : ∀ n, (reportedNeighbors rows n).Nodup
  count_eq : ∀ n, derived.keys.countP (·.1 = n) =
    (reportedNeighbors rows n).length * ((reportedNeighbors rows n).length - 1)

/-- A difference stands where there are two means, and is what they differ by. -/
theorem get?_differences_eq_some_iff {s : MeasurementSet RangeKey α} {n a b : NodeId} {d : α} :
    (tdoaFromMeanRanges (meanRanges s)).get? (n, a, b) = some d ↔
      a ≠ b ∧ ∃ x y, s.meanAt? (n, a) = some x ∧ s.meanAt? (n, b) = some y ∧ x - y = d := by
  rw [get?_tdoaFromMeanRanges]
  split
  case isTrue hab => simp [hab]
  case isFalse hab =>
    simp only [Option.bind_eq_some_iff, Option.map_eq_some_iff, ne_eq, hab, not_false_eq_true, true_and,
      exists_and_left]

variable [UnorderedSort] [StudentQuantile α] {s : MeasurementSet RangeKey α} {config : EvaluationConfig α}
  {truth : RangeKey → Option α} {rows : List (PairEvaluation RangeKey α)}

/-- The means that differences are derived from are those of the rows. -/
theorem meanAt?_evaluated_eq_some_iff (h : s.rowsOf config truth = .ok rows) {k : RangeKey} {m : α} :
    (s.evaluated config).meanAt? k = some m ↔ ∃ row ∈ rows, row.pair.key = k ∧ row.pair.summary.mean = m := by
  simp only [MeasurementSet.meanAt?, Option.bind_eq_some_iff, toOption_eq_some_iff]
  constructor
  · rintro ⟨kept, hkept, hm⟩
    obtain ⟨row, hrow, hmade⟩ := exists_row h hkept
    have hmean := mean_of_rowOf hmade
    rw [hm] at hmean
    cases hmean
    exact ⟨row, hrow, (of_rowOf hmade).1, rfl⟩
  · rintro ⟨row, hrow, rfl, rfl⟩
    obtain ⟨kept, hkept, hmade⟩ := (mem_rows_iff h).1 hrow
    exact ⟨kept, hkept, mean_of_rowOf hmade⟩

theorem nodup_reportedNeighbors (h : s.rowsOf config truth = .ok rows) (node : NodeId) :
    (reportedNeighbors rows node).Nodup := by
  have hkeys : (rows.map (·.pair.key)).Nodup := by
    rw [keys_rows_eq h]
    exact SortedMap.keys_nodup _
  refine (hkeys.filter _).map_on fun j hj k hk hsnd => Prod.ext ?_ hsnd
  rw [of_decide_eq_true (List.mem_filter.1 hj).2, of_decide_eq_true (List.mem_filter.1 hk).2]

theorem get?_derived_eq_some_iff (h : s.rowsOf config truth = .ok rows) (n a b : NodeId) (d : α) :
    (tdoaFromMeanRanges (meanRanges (s.evaluated config))).get? (n, a, b) = some d ↔
      a ≠ b ∧ ∃ x ∈ rows, ∃ y ∈ rows, x.pair.key = (n, a) ∧ y.pair.key = (n, b) ∧
        x.pair.summary.mean - y.pair.summary.mean = d := by
  simp only [get?_differences_eq_some_iff, meanAt?_evaluated_eq_some_iff h]
  constructor
  · rintro ⟨hab, _, _, ⟨x, hx, hxa, rfl⟩, ⟨y, hy, hyb, rfl⟩, rfl⟩
    exact ⟨hab, x, hx, y, hy, hxa, hyb, rfl⟩
  · rintro ⟨hab, x, hx, y, hy, hxa, hyb, rfl⟩
    exact ⟨hab, _, _, ⟨x, hx, hxa, rfl⟩, ⟨y, hy, hyb, rfl⟩, rfl⟩

/-- The keys of a node are the ordered pairs of distinct neighbours. -/
theorem countP_keys_derived (h : s.rowsOf config truth = .ok rows) (n : NodeId) :
    (tdoaFromMeanRanges (meanRanges (s.evaluated config))).keys.countP (·.1 = n) =
      (reportedNeighbors rows n).length * ((reportedNeighbors rows n).length - 1) := by
  generalize hderived : tdoaFromMeanRanges (meanRanges (s.evaluated config)) = derived
  have hpairs : (derived.keys.filter (·.1 = n)).toFinset =
      (reportedNeighbors rows n).toFinset.offDiag.image fun p => (n, p.1, p.2) := by
    ext ⟨l, a, b⟩
    simp only [List.mem_toFinset, List.mem_filter, SortedMap.mem_keys_iff, decide_eq_true_eq, Finset.mem_image,
      Finset.mem_offDiag, mem_reportedNeighbors_iff, ← hderived, get?_derived_eq_some_iff h, Prod.exists, Prod.mk.injEq]
    constructor
    · rintro ⟨⟨_, hab, x, hx, y, hy, hxa, hyb, rfl⟩, rfl⟩
      exact ⟨a, b, ⟨⟨x, hx, hxa⟩, ⟨y, hy, hyb⟩, hab⟩, rfl, rfl, rfl⟩
    · rintro ⟨_, _, ⟨⟨x, hx, hxa⟩, ⟨y, hy, hyb⟩, hab⟩, rfl, rfl, rfl⟩
      exact ⟨⟨_, hab, x, hx, y, hy, hxa, hyb, rfl⟩, rfl⟩
  have hinjective : Function.Injective fun p : NodeId × NodeId => (n, p.1, p.2) := fun p q hpq => (Prod.mk.inj hpq).2
  calc derived.keys.countP (·.1 = n)
      = (derived.keys.filter (·.1 = n)).toFinset.card := by
        rw [List.toFinset_card_of_nodup (derived.keys_nodup.filter _), List.countP_eq_length_filter]
    _ = (reportedNeighbors rows n).length * ((reportedNeighbors rows n).length - 1) := by
        rw [hpairs, Finset.card_image_of_injective _ hinjective, Finset.offDiag_card,
          List.toFinset_card_of_nodup (nodup_reportedNeighbors h n), Nat.mul_sub_one]

theorem derivedFrom_rows (h : s.rowsOf config truth = .ok rows) :
    DerivedFrom rows (tdoaFromMeanRanges (meanRanges (s.evaluated config))) where
  get?_eq_some_iff := get?_derived_eq_some_iff h
  neighbors_nodup := nodup_reportedNeighbors h
  count_eq := countP_keys_derived h

/-- The derived differences of a report are those of the means in its rows. -/
theorem derivedFrom_of_evaluateRun {run : CollectedRun α} {report : EvaluationReport α}
    (h : evaluateRun run config = .ok report) : DerivedFrom report.twr report.derivedTdoa := by
  obtain ⟨twr, exchanges, tdoa, htwr, -, -, rfl⟩ := evaluateRun_ok h
  exact derivedFrom_rows htwr

end Rows

section Exact

variable {K : Type} [Field K] [LinearOrder K] [FloorSemiring K] [SquareRoot K]

/-- Differences that can be turned round and put together. -/
structure SortedMap.AddsUp (derived : SortedMap TdoaKey (Extended K)) : Prop where
  turned : ∀ n a b d, derived.get? (n, a, b) = some d → derived.get? (n, b, a) = some (-d)
  joined : ∀ n a b c d e, a ≠ c → derived.get? (n, a, b) = some d → derived.get? (n, b, c) = some e →
    derived.get? (n, a, c) = some (d + e)

variable [UnorderedSort]

/-- What stays of a series has a number as its mean. -/
theorem exists_meanAt?_eq_finite {s : MeasurementSet RangeKey (Extended K)} {config : EvaluationConfig (Extended K)}
    {k : RangeKey} {m : Extended K} (h : (s.evaluated config).meanAt? k = some m) : ∃ x, m = finite x := by
  obtain ⟨kept, hkept, hm⟩ := Option.bind_eq_some_iff.1 h
  rw [toOption_eq_some_iff] at hm
  have hfinite : ∀ x ∈ kept.map Measurement.distance, Arith.isFinite x = true := by
    simpa using isFinite_of_mem_evaluated s config (SortedMap.get?_eq_some_iff.1 hkept)
  obtain ⟨xs, hxs⟩ := exists_map_finite hfinite
  cases xs with
  | nil =>
      rw [hxs] at hm
      cases hm
  | cons x xs =>
      rw [hxs, mean_finite (List.cons_ne_nil x xs)] at hm
      cases hm
      exact ⟨_, rfl⟩

theorem addsUp_derived (s : MeasurementSet RangeKey (Extended K)) (config : EvaluationConfig (Extended K)) :
    (tdoaFromMeanRanges (meanRanges (s.evaluated config))).AddsUp := by
  constructor
  · intro n a b d hd
    obtain ⟨hab, _, _, hx, hy, rfl⟩ := get?_differences_eq_some_iff.1 hd
    obtain ⟨x, rfl⟩ := exists_meanAt?_eq_finite hx
    obtain ⟨y, rfl⟩ := exists_meanAt?_eq_finite hy
    refine get?_differences_eq_some_iff.2 ⟨hab.symm, _, _, hy, hx, ?_⟩
    rw [finite_sub_finite, finite_sub_finite, neg_finite, neg_sub]
  · intro n a b c d e hac hd he
    obtain ⟨-, _, _, hx, hy, rfl⟩ := get?_differences_eq_some_iff.1 hd
    obtain ⟨-, _, _, hy', hz, rfl⟩ := get?_differences_eq_some_iff.1 he
    obtain rfl := Option.some.inj (hy.symm.trans hy')
    obtain ⟨x, rfl⟩ := exists_meanAt?_eq_finite hx
    obtain ⟨y, rfl⟩ := exists_meanAt?_eq_finite hy
    obtain ⟨z, rfl⟩ := exists_meanAt?_eq_finite hz
    refine get?_differences_eq_some_iff.2 ⟨hac, _, _, hx, hz, ?_⟩
    rw [finite_sub_finite, finite_sub_finite, finite_sub_finite, finite_add_finite, sub_add_sub_cancel]

/-- In exact arithmetic the derived differences of a report add up. -/
theorem addsUp_of_evaluateRun [StudentQuantile (Extended K)] {run : CollectedRun (Extended K)}
    {config : EvaluationConfig (Extended K)} {report : EvaluationReport (Extended K)}
    (h : evaluateRun run config = .ok report) : report.derivedTdoa.AddsUp := by
  obtain ⟨twr, exchanges, tdoa, -, -, -, rfl⟩ := evaluateRun_ok h
  exact addsUp_derived run.twr config

end Exact

/-- The derived differences of a report are those of the means in its rows, in whatever arithmetic it is computed, and a
node with rows for `k` others has `k * (k - 1)` of them. In exact arithmetic they add up. -/
theorem evaluateRun_derives_from_rows [UnorderedSort] {α : Type} [Arith α] [StudentQuantile α]
    {run : CollectedRun α} {config : EvaluationConfig α} {report : EvaluationReport α}
    (h : evaluateRun run config = .ok report)
    {K : Type} [Field K] [LinearOrder K] [FloorSemiring K] [SquareRoot K] [StudentQuantile (Extended K)]
    {run' : CollectedRun (Extended K)} {config' : EvaluationConfig (Extended K)}
    {report' : EvaluationReport (Extended K)} (h' : evaluateRun run' config' = .ok report') :
    DerivedFrom report.twr report.derivedTdoa ∧ report'.derivedTdoa.AddsUp :=
  ⟨derivedFrom_of_evaluateRun h, addsUp_of_evaluateRun h'⟩

/-- A node with ranges to three others. -/
def threeNeighborsRun : CollectedRun (Extended ℚ) where
  twr := ⟨.centimeters, .ofList [((1, 2), [⟨0, finite 99⟩, ⟨0, finite 101⟩]), ((1, 3), [⟨3, finite 40⟩]),
    ((1, 4), [⟨0, finite 250⟩, ⟨1, finite 250⟩, ⟨0, nan⟩])]⟩
  tdoa := .empty .meters
  exchanges := .empty .ticks
  streams := .empty

/-- The crowded run has ranges of node one to two others, and two differences. In exact arithmetic the difference of the
first and the third of three neighbours follows from the two others. -/
theorem evaluateRun_derives_from_rows_crowded_and_three :
    ∃ report report', evaluateRun crowdedRun .default = .ok report ∧
      evaluateRun threeNeighborsRun surveyedConfig = .ok report' ∧
      reportedNeighbors report.twr 1 = [2, 4] ∧ report.derivedTdoa.keys.countP (·.1 = 1) = 2 ∧
      report'.derivedTdoa.get? (1, 2, 3) = some (finite 60) ∧
      report'.derivedTdoa.get? (1, 3, 4) = some (finite (-210)) ∧
      report'.derivedTdoa.get? (1, 2, 4) = some (finite 60 + finite (-210)) := by
  have hcrowded : ((evaluateRun crowdedRun .default).map fun report => reportedNeighbors report.twr 1) =
      .ok [2, 4] := by
    decide +kernel
  have hthree : ((evaluateRun threeNeighborsRun surveyedConfig).map fun report =>
      (report.derivedTdoa.get? (1, 2, 3), report.derivedTdoa.get? (1, 3, 4))).toOption =
        some (some (finite 60), some (finite (-210))) := by
    decide +kernel
  obtain ⟨report, hreport, hneighbors⟩ := map_eq_ok_iff.1 hcrowded
  obtain ⟨report', hreport', hpair⟩ := map_eq_ok_iff.1 (toOption_eq_some_iff.1 hthree)
  obtain ⟨hfirst, hsecond⟩ := Prod.mk.inj hpair
  obtain ⟨hderived, hadds⟩ := evaluateRun_derives_from_rows hreport hreport'
  have hcount := hderived.count_eq 1
  rw [hneighbors] at hcount
  exact ⟨report, report', hreport, hreport', hneighbors, hcount, hfirst, hsecond,
    hadds.joined 1 2 3 4 _ _ (by decide) hfirst hsecond⟩

end UwbRanging
