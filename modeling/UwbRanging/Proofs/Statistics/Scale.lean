import UwbRanging.Proofs.Statistics.Exact
import UwbRanging.Proofs.Statistics.Sort
import UwbRanging.Proofs.Statistics.Summary

/-!
In exact arithmetic all statistics are in the unit of their values. Where every value is multiplied by a positive
number, so are median, mean, deviation and interval, and the same values are close to the median.
-/

namespace UwbRanging.Statistics

open Extended

/-- The summary of the same series with every value multiplied by a factor. -/
def Summary.times {α : Type} [Arith α] (factor : α) (s : Summary α) : Summary α where
  count := s.count
  mean := s.mean * factor
  stdDev := s.stdDev * factor
  ciLow := s.ciLow * factor
  ciHigh := s.ciHigh * factor

variable {K : Type} [Field K] [LinearOrder K] [FloorSemiring K] [SquareRoot K]

/-- What is close to anything is a number. -/
theorem isFinite_of_isClose {threshold middle v : Extended K} (h : isClose threshold middle v = true) :
    Arith.isFinite v = true :=
  isFinite_of_sub (isFinite_of_abs_lt h)

theorem stdDev_scale {f : K} (hf : 0 < f)
    (hsqrt : ∀ f x : K, 0 < f → SquareRoot.sqrt (finite (f ^ 2 * x)) = SquareRoot.sqrt (finite x) * finite f)
    {values : List (Extended K)} (hfinite : ∀ x ∈ values, Arith.isFinite x = true) :
    stdDev (values.map (scale f)) = (stdDev values).map (scale f) := by
  obtain ⟨xs, rfl⟩ := exists_map_finite hfinite
  have hscaled : (xs.map finite).map (scale f) = (xs.map (f * ·)).map finite := by simp
  rw [hscaled, stdDev, stdDev]
  cases xs with
  | nil => rfl
  | cons x xs =>
      rw [variance_finite (by simp), variance_finite (by simp), sampleVariance_mul]
      change Except.ok (SquareRoot.sqrt (finite (f ^ 2 * sampleVariance (x :: xs)))) =
        .ok (scale f (SquareRoot.sqrt (finite (sampleVariance (x :: xs)))))
      rw [hsqrt f _ hf, mul_finite _ hf]

theorem isSortable_scale (f : K) (values : List (Extended K)) :
    isSortable (values.map (scale f)) = isSortable values := by
  have hnumber (v : Extended K) : isNumber (scale f v) = isNumber v := by
    cases v with
    | finite x => rw [scale_finite, isNumber, isNumber, eq_finite, eq_finite, decide_eq_true rfl, decide_eq_true rfl]
    | infinite s => rfl
    | nan => rfl
  rw [isSortable, isSortable, List.length_map, List.all_map]
  simp only [Function.comp_def, hnumber]

section Positive

variable [IsStrictOrderedRing K] {f : K} (hf : 0 < f)
include hf

theorem insertDescending_scale (v : Extended K) (ws : List (Extended K)) :
    insertDescending (scale f v) (ws.map (scale f)) = (insertDescending v ws).map (scale f) := by
  induction ws with
  | nil => rfl
  | cons w ws ih =>
      rw [List.map_cons, insertDescending, insertDescending, lt_scale v w hf, ih]
      split <;> rfl

theorem ascending_scale (values : List (Extended K)) :
    ascending (values.map (scale f)) = (ascending values).map (scale f) := by
  have hfrom (ws : List (Extended K)) :
      (values.map (scale f)).foldl (fun ws v => insertDescending v ws) (ws.map (scale f)) =
        (values.foldl (fun ws v => insertDescending v ws) ws).map (scale f) := by
    induction values generalizing ws with
    | nil => rfl
    | cons v values ih => rw [List.map_cons, List.foldl_cons, List.foldl_cons, insertDescending_scale hf, ih]
  rw [ascending, ascending, List.map_reverse, ← hfrom, List.map_nil]

theorem middleOf_scale (values : List (Extended K)) :
    middleOf (values.map (scale f)) = (middleOf values).map (scale f) := by
  rw [middleOf, middleOf, List.length_map, ← List.map_drop]
  cases values.drop ((values.length - 1) / 2) with
  | nil => rfl
  | cons a rest =>
      cases rest with
      | nil => rfl
      | cons b rest =>
          simp only [List.map_cons, ← scale_add, scale_div _ _ hf, ← apply_ite (scale f)]
          rfl

section Median

variable [UnorderedSort]

/-- The sort sees nothing of the factor, not even where some values are no numbers. -/
theorem ascending?_scale (values : List (Extended K)) :
    ascending? (values.map (scale f)) = (ascending? values).map (List.map (scale f)) := by
  have hlt : (fun v w : Extended K => Arith.lt (scale f v) (scale f w)) = Arith.lt :=
    funext₂ fun v w => lt_scale v w hf
  rw [ascending?, ascending?, isSortable_scale, ascending_scale hf, UnorderedSort.map, hlt, apply_ite (Option.map _)]
  rfl

theorem median_scale (values : List (Extended K)) :
    median (values.map (scale f)) = (median values).map (scale f) := by
  rw [median, median, ascending?_scale hf]
  cases ascending? values with
  | none => rfl
  | some sorted => exact middleOf_scale hf sorted

end Median

theorem isClose_scale (threshold middle v : Extended K) :
    isClose (scale f threshold) (scale f middle) (scale f v) = isClose threshold middle v := by
  rw [isClose, isClose, ← scale_sub, abs_scale _ hf, lt_scale _ _ hf]

theorem mean_scale (values : List (Extended K)) : mean (values.map (scale f)) = (mean values).map (scale f) := by
  rw [mean, mean, sum_map_scale, List.length_map, List.isEmpty_map, scale_div _ _ hf]
  split <;> rfl

theorem reachOf_scale [StudentQuantile (Extended K)] (n : Nat) (stdDev confidence : Extended K) :
    reachOf n (scale f stdDev) confidence = (reachOf n stdDev confidence).map (scale f) := by
  unfold reachOf
  split
  · simp [Except.map]
  · cases StudentQuantile.quantile ((Arith.one + confidence) / Arith.ofNat 2) (UInt32.ofNat (n - 1)) with
    | error error => rfl
    | ok t => simp only [Except.map, mul_scale t stdDev hf, scale_div _ _ hf]

theorem summarize_scale [StudentQuantile (Extended K)]
    (hsqrt : ∀ f x : K, 0 < f → SquareRoot.sqrt (finite (f ^ 2 * x)) = SquareRoot.sqrt (finite x) * finite f)
    {values : List (Extended K)} (hfinite : ∀ x ∈ values, Arith.isFinite x = true) (confidence : Extended K) :
    summarize (values.map (scale f)) confidence = (summarize values confidence).map (Summary.times (finite f)) := by
  cases hc : Arith.isProbability confidence with
  | false =>
      rw [summarize_of_not_isProbability hc, summarize_of_not_isProbability hc]
      rfl
  | true =>
      rw [summarize_of_isProbability hc, summarize_of_isProbability hc, mean_scale hf, stdDev_scale hf hsqrt hfinite,
        List.length_map]
      refine map_bind_eq fun m => map_bind_eq fun s => ?_
      rw [reachOf_scale hf]
      refine map_bind_eq fun half => ?_
      change Except.ok _ = .ok (Summary.times (finite f) ⟨values.length, m, s, m - half, m + half⟩)
      simp only [Summary.times, mul_finite _ hf, scale_sub, scale_add]

end Positive

end UwbRanging.Statistics
