import UwbRanging.Proofs.Exact.Extended
import UwbRanging.Proofs.Statistics.Sort
import UwbRanging.Proofs.Statistics.Summary

/-!
In exact arithmetic no statistic depends on the order of its values. Sums may be taken in any order, and numbers have
one ascending order, however they come.
-/

namespace UwbRanging.Statistics

open Extended

variable {K : Type} [Field K] [LinearOrder K] [FloorSemiring K] [SquareRoot K] {xs ys : List (Extended K)}

theorem isNumber_of_isFinite {x : Extended K} (h : Arith.isFinite x = true) : isNumber x = true := by
  obtain ⟨a, rfl⟩ := isFinite_iff.1 h
  rw [isNumber, eq_finite, decide_eq_true rfl]

theorem lt_of_lt_of_not_lt {x y : K} {w : Extended K} (hx : Arith.lt (finite x) w = true)
    (hy : Arith.lt (finite y) w = false) : x < y := by
  change lt (finite x) w = true at hx
  change lt (finite y) w = false at hy
  cases w with
  | finite w =>
      simp only [lt, decide_eq_true_eq, decide_eq_false_iff_not, not_lt] at hx hy
      exact lt_of_lt_of_le hx hy
  | infinite s => simp_all [lt]
  | nan => simp [lt] at hx

theorem insertDescending_swap (x y : K) (ws : List (Extended K)) :
    insertDescending (finite x) (insertDescending (finite y) ws) =
      insertDescending (finite y) (insertDescending (finite x) ws) := by
  -- a number behind `w` is less than one before it
  have hcons (w : Extended K) (ws : List (Extended K)) {x y : K} (hx : Arith.lt (finite x) w = true)
      (hy : Arith.lt (finite y) w = false) :
      insertDescending (finite x) (insertDescending (finite y) (w :: ws)) =
        insertDescending (finite y) (insertDescending (finite x) (w :: ws)) := by
    have hxy : x < y := lt_of_lt_of_not_lt hx hy
    simp [insertDescending, hx, hy, hxy]
  have hpair (ws : List (Extended K)) :
      (if x < y then finite y :: finite x :: ws else finite x :: finite y :: ws) =
        if y < x then finite x :: finite y :: ws else finite y :: finite x :: ws := by
    rcases lt_trichotomy x y with h | rfl | h
    · rw [if_pos h, if_neg h.not_gt]
    · rfl
    · rw [if_neg h.not_gt, if_pos h]
  induction ws with
  | nil => simpa [insertDescending] using hpair []
  | cons w ws ih =>
      cases hx : Arith.lt (finite x) w with
      | true =>
          cases hy : Arith.lt (finite y) w with
          | true => simp [insertDescending, hx, hy, ih]
          | false => exact hcons w ws hx hy
      | false =>
          cases hy : Arith.lt (finite y) w with
          | true => exact (hcons w ws hy hx).symm
          | false => simpa [insertDescending, hx, hy] using hpair (w :: ws)

/-- Numbers have one ascending order. -/
theorem ascending_perm (h : xs.Perm ys) (hfinite : ∀ x ∈ xs, Arith.isFinite x = true) :
    ascending xs = ascending ys := by
  refine congrArg List.reverse (h.foldl_eq' (fun x hx y hy ws => ?_) [])
  obtain ⟨a, rfl⟩ := isFinite_iff.1 (hfinite x hx)
  obtain ⟨b, rfl⟩ := isFinite_iff.1 (hfinite y hy)
  exact insertDescending_swap b a ws

theorem isSortable_of_finite (hfinite : ∀ x ∈ xs, Arith.isFinite x = true) : isSortable xs = true :=
  isSortable_of_numbers fun x hx => isNumber_of_isFinite (hfinite x hx)

theorem median_perm [UnorderedSort] (h : xs.Perm ys) (hfinite : ∀ x ∈ xs, Arith.isFinite x = true) :
    median xs = median ys := by
  have hfinite' : ∀ y ∈ ys, Arith.isFinite y = true := fun y hy => hfinite y (h.mem_iff.2 hy)
  rw [median_of_isSortable (isSortable_of_finite hfinite), median_of_isSortable (isSortable_of_finite hfinite'),
    ascending_perm h hfinite]

theorem mean_perm (h : xs.Perm ys) : mean xs = mean ys := by
  rw [mean, mean, h.isEmpty_eq, sum_perm h, h.length_eq]

theorem variance_perm (h : xs.Perm ys) : variance xs = variance ys := by
  have hsquares (m : Extended K) :
      Arith.sum (xs.map fun v => Arith.square (v - m)) = Arith.sum (ys.map fun v => Arith.square (v - m)) :=
    sum_perm (h.map _)
  simp only [variance, mean_perm h, h.length_eq, hsquares]

theorem stdDev_perm (h : xs.Perm ys) : stdDev xs = stdDev ys := by
  rw [stdDev, stdDev, variance_perm h]

theorem summarize_perm [StudentQuantile (Extended K)] (h : xs.Perm ys) (confidence : Extended K) :
    summarize xs confidence = summarize ys confidence := by
  simp only [summarize, mean_perm h, stdDev_perm h, h.length_eq]

end UwbRanging.Statistics
