import UwbRanging.Proofs.Exact.Rational
import UwbRanging.Proofs.Statistics.Median

/-!
What the outlier filter keeps of a series of numbers. A series whose two middle values are far apart loses everything:
the median is then the empty place between them.
-/

namespace UwbRanging.Statistics

open Extended

variable {K : Type} [Field K] [LinearOrder K]

/-- The values closer than `threshold` to the median. -/
def closeToMiddle (threshold : K) (xs : List K) : List K :=
  xs.filter fun x => |x - middle xs| < threshold

theorem length_sub_length_closeToMiddle (threshold : K) (xs : List K) :
    xs.length - (closeToMiddle threshold xs).length = xs.countP fun x => threshold ≤ |x - middle xs| := by
  have hcount : xs.length = (xs.countP fun x => |x - middle xs| < threshold) +
      xs.countP fun x => threshold ≤ |x - middle xs| := by
    simpa only [decide_eq_true_eq, not_lt] using
      List.length_eq_countP_add_countP (l := xs) fun x => |x - middle xs| < threshold
  rw [closeToMiddle, ← List.countP_eq_length_filter]
  omega

theorem closeToMiddle_eq_nil_iff [IsStrictOrderedRing K] {threshold : K} {xs : List K} (h : xs ≠ [])
    (hpos : 0 < threshold) :
    closeToMiddle threshold xs = [] ↔ xs.length % 2 = 0 ∧ 2 * threshold ≤ upperMiddle xs - lowerMiddle xs := by
  have hempty : closeToMiddle threshold xs = [] ↔ ¬∃ x ∈ xs, |x - middle xs| < threshold := by
    simp [closeToMiddle]
  rw [hempty, exists_close_iff h, not_lt]
  refine ⟨fun hgap => ⟨?_, hgap⟩, And.right⟩
  by_contra hodd
  rw [lowerMiddle_eq_upperMiddle (by omega), sub_self] at hgap
  linarith

variable [FloorSemiring K] [SquareRoot K]

@[simp] theorem isClose_finite (threshold m x : K) :
    isClose (finite threshold) (finite m) (finite x) = decide (|x - m| < threshold) := by
  rw [isClose, finite_sub_finite, abs_finite, lt_finite]

/-- Every number is closer than infinitely far away. -/
@[simp] theorem isClose_infinite (m x : K) : isClose (infinite false) (finite m) (finite x) = true := by
  rw [isClose, finite_sub_finite, abs_finite]
  rfl

section Filter

variable [UnorderedSort]

theorem filterOutliers_finite (threshold : K) (xs : List K) :
    filterOutliers (xs.map finite) (finite threshold) =
      some ⟨(closeToMiddle threshold xs).map finite, xs.countP fun x => threshold ≤ |x - middle xs|⟩ := by
  cases xs with
  | nil => exact filterOutliers_nil _
  | cons x xs =>
      have hclose : ((x :: xs).map finite).filter (isClose (finite threshold) (finite (middle (x :: xs)))) =
          (closeToMiddle threshold (x :: xs)).map finite := by
        rw [List.filter_map, closeToMiddle]
        simp only [Function.comp_def, isClose_finite]
      rw [filterOutliers_of_median (median_finite (List.cons_ne_nil x xs))]
      simp only [hclose, List.length_map, length_sub_length_closeToMiddle]

theorem filterOutliers_infinite (xs : List K) :
    filterOutliers (xs.map finite) (infinite false) = some ⟨xs.map finite, 0⟩ := by
  cases xs with
  | nil => exact filterOutliers_nil _
  | cons x xs =>
      have hclose : ((x :: xs).map finite).filter (isClose (infinite false) (finite (middle (x :: xs)))) =
          (x :: xs).map finite := by
        simp [List.filter_eq_self]
      rw [filterOutliers_of_median (median_finite (List.cons_ne_nil x xs))]
      simp only [hclose, Nat.sub_self]

/-- The filter keeps, in their order, the values closer than the threshold to the median of the sorted series, and
counts the others. Nothing is left if the length is even and the two middle values are at least twice the threshold
apart, and only then. An infinite threshold leaves everything. -/
theorem filterOutliers_nothing_left_iff [IsStrictOrderedRing K] {xs : List K} {threshold : K} (h : xs ≠ [])
    (hpos : 0 < threshold) :
    median (xs.map finite) = .ok (finite ((lowerMiddle xs + upperMiddle xs) / 2)) ∧
      filterOutliers (xs.map finite) (finite threshold) =
        some ⟨(xs.filter fun x => |x - (lowerMiddle xs + upperMiddle xs) / 2| < threshold).map finite,
          xs.countP fun x => threshold ≤ |x - (lowerMiddle xs + upperMiddle xs) / 2|⟩ ∧
      ((filterOutliers (xs.map finite) (finite threshold)).map FilterOutcome.retained = some [] ↔
        xs.length % 2 = 0 ∧ 2 * threshold ≤ upperMiddle xs - lowerMiddle xs) ∧
      filterOutliers (xs.map finite) (infinite false) = some ⟨xs.map finite, 0⟩ := by
  refine ⟨median_finite h, filterOutliers_finite threshold xs, ?_, filterOutliers_infinite xs⟩
  rw [filterOutliers_finite, Option.map_some, Option.some.injEq, List.map_eq_nil_iff]
  exact closeToMiddle_eq_nil_iff h hpos

end Filter

/-- Two clusters of two values each: of the four nothing is left, of the first three two. -/
theorem filterOutliers_nothing_left_two_clusters :
    filterOutliers ([40, 10, 42, 12].map (finite : ℚ → Extended ℚ)) (finite 14) = some ⟨[], 4⟩ ∧
      (filterOutliers ([40, 10, 42].map (finite : ℚ → Extended ℚ)) (finite 14)).map FilterOutcome.retained =
        some [finite 40, finite 42] := by
  obtain ⟨-, hfour, hnothing, -⟩ :=
    filterOutliers_nothing_left_iff (by decide : ([40, 10, 42, 12] : List ℚ) ≠ []) (by norm_num : (0 : ℚ) < 14)
  obtain ⟨-, hthree, -⟩ :=
    filterOutliers_nothing_left_iff (by decide : ([40, 10, 42] : List ℚ) ≠ []) (by norm_num : (0 : ℚ) < 14)
  have hretained := hnothing.2 (by decide +kernel)
  have hremoved : ([40, 10, 42, 12] : List ℚ).countP (fun x => 14 ≤ |x - (lowerMiddle [40, 10, 42, 12] +
      upperMiddle [40, 10, 42, 12]) / 2|) = 4 := by
    decide +kernel
  refine ⟨?_, ?_⟩
  · rw [hfour] at hretained ⊢
    rw [hremoved]
    exact congrArg (fun retained => some (FilterOutcome.mk retained 4)) (Option.some.inj hretained)
  · rw [hthree]
    decide +kernel

end UwbRanging.Statistics
