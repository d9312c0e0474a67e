import UwbRanging.Proofs.Evaluation.Accounting
import UwbRanging.Proofs.Evaluation.Groups
import UwbRanging.Proofs.Float.NotANumber

/-!
When an evaluation fails. What stays of a series is not empty and neither is any of its groups, so the level of
confidence alone decides whether a row can be made: at a valid level each of them can, at an invalid one none. Apart
from that an evaluation breaks off where the sort does, and the sort does not as long as it knows the outcome.
-/

namespace UwbRanging

open Statistics

section Sets

variable {α : Type} {κ : Type} [KeyOrder κ]

/-- No series is longer than the given number of measurements. -/
def MeasurementSet.SeriesAtMost (s : MeasurementSet κ α) (bound : Nat) : Prop :=
  ∀ series ∈ s.series.values, series.length ≤ bound

instance (s : MeasurementSet κ α) (bound : Nat) : Decidable (s.SeriesAtMost bound) :=
  inferInstanceAs (Decidable (∀ series ∈ s.series.values, series.length ≤ bound))

def CollectedRun.SeriesAtMost (run : CollectedRun α) (bound : Nat) : Prop :=
  run.twr.SeriesAtMost bound ∧ run.exchanges.SeriesAtMost bound ∧ run.tdoa.SeriesAtMost bound

instance (run : CollectedRun α) (bound : Nat) : Decidable (run.SeriesAtMost bound) :=
  inferInstanceAs (Decidable (_ ∧ _ ∧ _))

variable [Arith α] [UnorderedSort]

/-- The filter breaks off at no series of the run, in the unit of the report. -/
def CollectedRun.FilterableFor (run : CollectedRun α) (config : EvaluationConfig α) : Prop :=
  run.twr.FilterableFor config ∧ run.exchanges.FilterableFor config ∧ run.tdoa.FilterableFor config

/-- Some key keeps enough measurements for a row. -/
def MeasurementSet.KeepsEnough (s : MeasurementSet κ α) (config : EvaluationConfig α) : Prop :=
  ∃ k, max config.minCount 1 ≤ keptCount s config k

def CollectedRun.KeepsEnough (run : CollectedRun α) (config : EvaluationConfig α) : Prop :=
  run.twr.KeepsEnough config ∨ run.exchanges.KeepsEnough config ∨ run.tdoa.KeepsEnough config

/-- Short series can always be filtered. -/
theorem MeasurementSet.SeriesAtMost.filterableFor {s : MeasurementSet κ α} (h : s.SeriesAtMost insertionLimit)
    (config : EvaluationConfig α) : s.FilterableFor config :=
  filterableFor_of_isSortable fun d hd => isSortable_of_short
    ((List.length_map _).trans_le (h d.2 (List.mem_map_of_mem hd)))

theorem CollectedRun.SeriesAtMost.filterableFor {run : CollectedRun α} (h : run.SeriesAtMost insertionLimit)
    (config : EvaluationConfig α) : run.FilterableFor config :=
  ⟨h.1.filterableFor config, h.2.1.filterableFor config, h.2.2.filterableFor config⟩

theorem MeasurementSet.keepsEnough_iff {s : MeasurementSet κ α} {config : EvaluationConfig α} :
    s.KeepsEnough config ↔ (s.evaluated config).series.entries ≠ [] := by
  simp only [KeepsEnough, ← mem_keys_evaluated_iff, keys]
  constructor
  · rintro ⟨k, hk⟩
    obtain ⟨d, hd, -⟩ := List.mem_map.1 hk
    exact List.ne_nil_of_mem hd
  · intro hne
    obtain ⟨d, hd⟩ := List.exists_mem_of_ne_nil _ hne
    exact ⟨d.1, List.mem_map_of_mem hd⟩

theorem MeasurementSet.of_mem_evaluated {s : MeasurementSet κ α} {config : EvaluationConfig α} {bound : Nat}
    (hlength : s.SeriesAtMost bound) {d : κ × List (Measurement α)}
    (hd : d ∈ (s.evaluated config).series.entries) : d.2 ≠ [] ∧ d.2.length ≤ bound := by
  obtain ⟨series, hseries, hkept, hcount⟩ := mem_evaluated_iff.1 hd
  have hvalue : series ∈ s.series.values := List.mem_map_of_mem (SortedMap.get?_eq_some_iff.1 hseries)
  constructor
  · intro hnil
    rw [hnil, List.length_nil] at hcount
    omega
  · rw [← hkept]
    exact (length_keptOf_le config s.unit series).trans (hlength series hvalue)

end Sets

section Rows

variable {α : Type} [Arith α] [StudentQuantile α] {κ : Type} {config : EvaluationConfig α} (truth : κ → Option α)

section ValidLevel

variable (htotal : StudentQuantile.Total α) (hconfidence : Arith.isProbability config.confidence = true)
  (hlevel : Arith.isProbability ((Arith.one + config.confidence) / Arith.ofNat 2) = true)
include htotal hconfidence hlevel

theorem exists_build {series : List (Measurement α)} (hlength : series.length ≤ 2 ^ 32) :
    ∃ report, ParameterReport.build series config.confidence = .ok report := by
  have hgroups : ∀ d ∈ (groupByParameter series).entries,
      ∃ row, (summarize d.2 config.confidence).map (d.1, ·) = .ok row := by
    intro d hd
    have hshort := (length_le_of_mem_group hd).trans hlength
    obtain ⟨summary, hsummary⟩ := exists_summarize htotal hconfidence hlevel (ne_nil_of_mem_group hd) hshort
    rw [hsummary]
    exact ⟨_, rfl⟩
  obtain ⟨rows, hrows⟩ := exists_mapM_eq_ok hgroups
  rw [build_eq, hrows]
  exact ⟨_, rfl⟩

theorem exists_rowOf (k : κ) {kept : List (Measurement α)} (hkept : kept ≠ []) (hlength : kept.length ≤ 2 ^ 32) :
    ∃ row, config.rowOf truth k kept = .ok row := by
  have hdistances : kept.map Measurement.distance ≠ [] := fun hnil => hkept (List.map_eq_nil_iff.1 hnil)
  have hshort : (kept.map Measurement.distance).length ≤ 2 ^ 32 := (List.length_map _).trans_le hlength
  obtain ⟨summary, hsummary⟩ := exists_summarize htotal hconfidence hlevel hdistances hshort
  obtain ⟨byParameter, hbuild⟩ := exists_build htotal hconfidence hlevel hlength
  rw [EvaluationConfig.rowOf, hsummary, hbuild]
  exact ⟨_, rfl⟩

variable [UnorderedSort] [KeyOrder κ]

theorem exists_rowsOf {s : MeasurementSet κ α} (hfilterable : s.FilterableFor config)
    (hlength : s.SeriesAtMost (2 ^ 32)) : ∃ rows, s.rowsOf config truth = .ok rows := by
  have hrows : ∀ d ∈ (s.evaluated config).series.entries, ∃ row, config.rowOf truth d.1 d.2 = .ok row := by
    intro d hd
    obtain ⟨hkept, hshort⟩ := MeasurementSet.of_mem_evaluated hlength hd
    exact exists_rowOf truth htotal hconfidence hlevel d.1 hkept hshort
  obtain ⟨rows, hrows⟩ := exists_mapM_eq_ok hrows
  exact ⟨rows, rowsOf_eq_ok_iff.2 ⟨hfilterable, mapM_eq_ok_iff.1 hrows⟩⟩

end ValidLevel

section Failures

variable [UnorderedSort] [KeyOrder κ] (htotal : StudentQuantile.Total α)
  (hlevel : Arith.isProbability config.confidence = true →
    Arith.isProbability ((Arith.one + config.confidence) / Arith.ofNat 2) = true)

/-- At an invalid level the first row fails, and only where there is none to make nothing does. -/
theorem rowsOf_of_not_isProbability (hconfidence : Arith.isProbability config.confidence = false)
    {s : MeasurementSet κ α} (hfilterable : s.FilterableFor config) :
    s.KeepsEnough config ∧ s.rowsOf config truth = .error (.failed .invalidConfidence) ∨
      ¬ s.KeepsEnough config ∧ s.rowsOf config truth = .ok [] := by
  rw [MeasurementSet.rowsOf, if_pos hfilterable]
  by_cases hkeeps : s.KeepsEnough config
  · refine .inl ⟨hkeeps, congrArg (Except.mapError _) (mapM_eq_error (fun d _ => ?_)
      (MeasurementSet.keepsEnough_iff.1 hkeeps))⟩
    rw [EvaluationConfig.rowOf, summarize_of_not_isProbability hconfidence]
    rfl
  · have hnone : (s.evaluated config).series.entries = [] :=
      not_ne_iff.1 (mt MeasurementSet.keepsEnough_iff.2 hkeeps)
    refine .inr ⟨hkeeps, ?_⟩
    rw [hnone]
    rfl

include htotal hlevel

theorem rowsOf_eq_error_iff {s : MeasurementSet κ α} (hlength : s.SeriesAtMost (2 ^ 32))
    {interruption : Interruption} :
    s.rowsOf config truth = .error interruption ↔
      ¬ s.FilterableFor config ∧ interruption = .brokenOff ∨
        s.FilterableFor config ∧ interruption = .failed .invalidConfidence ∧
          Arith.isProbability config.confidence = false ∧ s.KeepsEnough config := by
  by_cases hfilterable : s.FilterableFor config
  · cases hc : Arith.isProbability config.confidence with
    | true =>
        obtain ⟨rows, hrows⟩ := exists_rowsOf truth htotal hc (hlevel hc) hfilterable hlength
        simp [hrows, hfilterable]
    | false =>
        rcases rowsOf_of_not_isProbability truth hc hfilterable with ⟨hkeeps, hrows⟩ | ⟨hkeeps, hrows⟩
        · simp [hrows, hfilterable, hkeeps, eq_comm]
        · simp [hrows, hkeeps, hfilterable]
  · rw [MeasurementSet.rowsOf, if_neg hfilterable, Except.error.injEq]
    exact ⟨fun h => .inl ⟨hfilterable, h.symm⟩, fun h => (h.resolve_right fun h => hfilterable h.1).2.symm⟩

variable {run : CollectedRun α} (hlength : run.SeriesAtMost (2 ^ 32))
include hlength

/-- An evaluation breaks off, or fails for the level of confidence. -/
theorem evaluateRun_eq_error {interruption : Interruption} (h : evaluateRun run config = .error interruption) :
    ¬ run.FilterableFor config ∧ interruption = .brokenOff ∨
      interruption = .failed .invalidConfidence ∧ Arith.isProbability config.confidence = false ∧
        run.KeepsEnough config := by
  obtain ⟨htwr, hexchanges, htdoa⟩ := hlength
  -- the sets are evaluated one after the other, and the first that fails decides
  rw [evaluateRun_eq, bind_eq_error_iff] at h
  rcases h with h | ⟨_, -, h⟩
  · rcases (rowsOf_eq_error_iff _ htotal hlevel htwr).1 h with ⟨hbroken, hi⟩ | ⟨-, hi, hc, hkeeps⟩
    · exact .inl ⟨fun hfilterable => hbroken hfilterable.1, hi⟩
    · exact .inr ⟨hi, hc, .inl hkeeps⟩
  rw [bind_eq_error_iff] at h
  rcases h with h | ⟨_, -, h⟩
  · rcases (rowsOf_eq_error_iff _ htotal hlevel hexchanges).1 h with ⟨hbroken, hi⟩ | ⟨-, hi, hc, hkeeps⟩
    · exact .inl ⟨fun hfilterable => hbroken hfilterable.2.1, hi⟩
    · exact .inr ⟨hi, hc, .inr (.inl hkeeps)⟩
  rw [bind_eq_error_iff] at h
  rcases h with h | ⟨_, -, h⟩
  · rcases (rowsOf_eq_error_iff _ htotal hlevel htdoa).1 h with ⟨hbroken, hi⟩ | ⟨-, hi, hc, hkeeps⟩
    · exact .inl ⟨fun hfilterable => hbroken hfilterable.2.2, hi⟩
    · exact .inr ⟨hi, hc, .inr (.inr hkeeps)⟩
  · cases h

/-- Where a row is to be made at an invalid level, there is no report. -/
theorem evaluateRun_ne_ok (hconfidence : Arith.isProbability config.confidence = false)
    (hkeeps : run.KeepsEnough config) (report : EvaluationReport α) : evaluateRun run config ≠ .ok report := by
  obtain ⟨htwr, hexchanges, htdoa⟩ := hlength
  have hfails {κ : Type} [KeyOrder κ] {s : MeasurementSet κ α} (hlength : s.SeriesAtMost (2 ^ 32))
      (hkeeps : s.KeepsEnough config) {truth : κ → Option α} {rows : List (PairEvaluation κ α)}
      (hrows : s.rowsOf config truth = .ok rows) : False := by
    have hinvalid : s.rowsOf config truth = .error (.failed .invalidConfidence) :=
      (rowsOf_eq_error_iff truth htotal hlevel hlength).2
        (.inr ⟨(rowsOf_eq_ok_iff.1 hrows).1, rfl, hconfidence, hkeeps⟩)
    rw [hrows] at hinvalid
    cases hinvalid
  intro h
  obtain ⟨twr, exchanges, tdoa, htwrRows, hexchangesRows, htdoaRows, -⟩ := evaluateRun_ok h
  rcases hkeeps with hkeeps | hkeeps | hkeeps
  · exact hfails htwr hkeeps htwrRows
  · exact hfails hexchanges hkeeps hexchangesRows
  · exact hfails htdoa hkeeps htdoaRows

/-- At a valid level there is a report, unless the evaluation breaks off. -/
theorem exists_evaluateRun (hfilterable : run.FilterableFor config)
    (hconfidence : Arith.isProbability config.confidence = true) : ∃ report, evaluateRun run config = .ok report := by
  cases h : evaluateRun run config with
  | ok report => exact ⟨report, rfl⟩
  | error interruption =>
      rcases evaluateRun_eq_error htotal hlevel hlength h with ⟨hbroken, -⟩ | ⟨-, hinvalid, -⟩
      · exact absurd hfilterable hbroken
      · rw [hconfidence] at hinvalid
        cases hinvalid

end Failures

end Rows

section Numbers

variable {κ : Type} [KeyOrder κ]

/-- Every series that is too long to be sorted by insertion consists of numbers. -/
def MeasurementSet.NumbersWhereLong (s : MeasurementSet κ Float) : Prop :=
  ∀ series ∈ s.series.values, insertionLimit < series.length → ∀ m ∈ series, m.distance.isNaN = false

instance (s : MeasurementSet κ Float) : Decidable s.NumbersWhereLong :=
  inferInstanceAs (Decidable (∀ series ∈ s.series.values, insertionLimit < series.length →
    ∀ m ∈ series, m.distance.isNaN = false))

def CollectedRun.NumbersWhereLong (run : CollectedRun Float) : Prop :=
  run.twr.NumbersWhereLong ∧ run.exchanges.NumbersWhereLong ∧ run.tdoa.NumbersWhereLong

instance (run : CollectedRun Float) : Decidable run.NumbersWhereLong :=
  inferInstanceAs (Decidable (_ ∧ _ ∧ _))

theorem LengthUnit.factorTo_float (u v : LengthUnit) :
    0 < (u.factorTo v : Float) ∧ (u.factorTo v : Float).isFinite = true := by
  cases u <;> cases v <;> decide +kernel

variable [UnorderedSort]

/-- Numbers stay numbers in every unit, so the sort knows how to order them. -/
theorem MeasurementSet.NumbersWhereLong.filterableFor {s : MeasurementSet κ Float} (h : s.NumbersWhereLong)
    (config : EvaluationConfig Float) : s.FilterableFor config := by
  obtain ⟨hpos, hfinite⟩ := s.unit.factorTo_float config.rangeUnit
  refine filterableFor_of_isSortable fun d hd => ?_
  by_cases hlong : insertionLimit < d.2.length
  · refine isSortable_of_numbers fun x hx => ?_
    obtain ⟨m, hm, rfl⟩ := List.mem_map.1 hx
    exact eq_self_of_not_isNaN (isNaN_mul_eq_false (h d.2 (List.mem_map_of_mem hd) hlong m hm) hpos hfinite)
  · exact isSortable_of_short ((List.length_map _).trans_le (Nat.not_lt.1 hlong))

theorem CollectedRun.NumbersWhereLong.filterableFor {run : CollectedRun Float} (h : run.NumbersWhereLong)
    (config : EvaluationConfig Float) : run.FilterableFor config :=
  ⟨h.1.filterableFor config, h.2.1.filterableFor config, h.2.2.filterableFor config⟩

end Numbers

theorem EvaluationConfig.isProbability_of_valid {α : Type} [Arith α] {config : EvaluationConfig α}
    (h : config.firstInvalid? = none) : Arith.isProbability config.confidence = true := by
  have hvalid := List.find?_eq_none.1 h .confidence (by decide)
  simpa [isValid] using hvalid

/-- An evaluation that fails with an error does so because the level of confidence is not between zero and one, while
there is a row to make. Where the filter does not break off, it fails exactly then, and not at all with valid
settings; and the filter does not break off as long as every series of more than twenty measurements consists of
numbers. The point half way from a level to one has to stay below one, which it does not at the greatest level of all,
where it is rounded up. -/
theorem evaluateRun_error_iff [UnorderedSort] [StudentQuantile Float] (hquantile : StudentQuantile.Total Float)
    {run : CollectedRun Float} (hlength : run.SeriesAtMost (2 ^ 32)) {config : EvaluationConfig Float}
    (hlevel : config.confidence < 1 → (1 + config.confidence) / 2 < 1) :
    (∀ error, evaluateRun run config = .error (.failed error) →
      error = .invalidConfidence ∧ ¬ (0 < config.confidence ∧ config.confidence < 1) ∧ run.KeepsEnough config) ∧
    (run.FilterableFor config →
      (∀ interruption, evaluateRun run config = .error interruption ↔ interruption = .failed .invalidConfidence ∧
        ¬ (0 < config.confidence ∧ config.confidence < 1) ∧ run.KeepsEnough config) ∧
      (config.firstInvalid? = none → ∃ report, evaluateRun run config = .ok report)) ∧
    (run.NumbersWhereLong → run.FilterableFor config) := by
  have hhalfway (hc : Arith.isProbability config.confidence = true) :
      Arith.isProbability ((Arith.one + config.confidence) / Arith.ofNat 2) = true := by
    obtain ⟨hzero, hone⟩ := isProbability_iff.1 hc
    exact isProbability_iff.2 ⟨zero_lt_level hzero hone, hlevel hone⟩
  simp only [← isProbability_iff, Bool.not_eq_true]
  refine ⟨fun error h => ?_, fun hfilterable => ⟨fun interruption => ⟨fun h => ?_, ?_⟩, fun hvalid => ?_⟩,
    fun hnumbers => hnumbers.filterableFor config⟩
  · rcases evaluateRun_eq_error hquantile hhalfway hlength h with ⟨-, hbroken⟩ | ⟨herror, hinvalid⟩
    · cases hbroken
    · exact ⟨Interruption.failed.inj herror, hinvalid⟩
  · exact (evaluateRun_eq_error hquantile hhalfway hlength h).resolve_left fun hbroken => hbroken.1 hfilterable
  · rintro ⟨rfl, hinvalid, hkeeps⟩
    cases h : evaluateRun run config with
    | ok report => exact absurd h (evaluateRun_ne_ok hquantile hhalfway hlength hinvalid hkeeps report)
    | error interruption =>
        rcases evaluateRun_eq_error hquantile hhalfway hlength h with ⟨hbroken, -⟩ | ⟨rfl, -⟩
        · exact absurd hfilterable hbroken
        · rfl
  · exact exists_evaluateRun hquantile hhalfway hlength hfilterable (EvaluationConfig.isProbability_of_valid hvalid)

/-- A level that is not a number is reported, for two ranges of the first pair stay. With the default settings there is
a report. -/
theorem evaluateRun_error_iff_crowded :
    evaluateRun crowdedRun { EvaluationConfig.default with confidence := 0 / 0 } =
        .error (.failed .invalidConfidence) ∧
      ∃ report, evaluateRun crowdedRun EvaluationConfig.default = .ok report := by
  have hlength : crowdedRun.SeriesAtMost (2 ^ 32) := by decide
  have hnumbers : crowdedRun.NumbersWhereLong := by decide
  have hkeeps : crowdedRun.KeepsEnough { EvaluationConfig.default with confidence := 0 / 0 } :=
    .inl ⟨(1, 2), by decide +kernel⟩
  constructor
  · obtain ⟨-, hfails, hfilterable⟩ := @evaluateRun_error_iff _ _ studentQuantile_total crowdedRun hlength
      { EvaluationConfig.default with confidence := 0 / 0 } (by decide +kernel)
    exact ((hfails (hfilterable hnumbers)).1 _).2 ⟨rfl, by decide +kernel, hkeeps⟩
  · obtain ⟨-, hfails, hfilterable⟩ := @evaluateRun_error_iff _ _ studentQuantile_total crowdedRun hlength .default
      (by decide +kernel)
    exact (hfails (hfilterable hnumbers)).2 (by decide +kernel)

/-- One pair with twenty-one ranges, of which one is no number. -/
def unsortedRun : CollectedRun Float where
  twr := ⟨.centimeters, .ofList [((1, 2), ⟨0, 2⟩ :: List.replicate 9 ⟨0, 1⟩ ++ ⟨0, 0 / 0⟩ :: List.replicate 10 ⟨0, 0⟩)]⟩
  tdoa := .empty .centimeters
  exchanges := .empty .ticks
  streams := .empty

/-- With the default settings, which are valid, the evaluation of so many ranges breaks off. -/
theorem evaluateRun_breaks_off_unsorted :
    (EvaluationConfig.default : EvaluationConfig Float).firstInvalid? = none ∧ StudentQuantile.Total Float ∧
      unsortedRun.SeriesAtMost (2 ^ 32) ∧ (1 + (EvaluationConfig.default : EvaluationConfig Float).confidence) / 2 < 1 ∧
      evaluateRun unsortedRun .default = .error .brokenOff := by
  refine ⟨by decide +kernel, studentQuantile_total, by decide +kernel, by decide +kernel, ?_⟩
  have hunsorted : ¬ unsortedRun.twr.FilterableFor .default := by decide +kernel
  rw [evaluateRun_eq, MeasurementSet.rowsOf, if_neg hunsorted]
  rfl

example : Float.ofBits 0x3FEFFFFFFFFFFFFF < 1 ∧ (1 + Float.ofBits 0x3FEFFFFFFFFFFFFF) / 2 = 1 := by
  decide +kernel

end UwbRanging
