import Mathlib.Algebra.Order.BigOperators.Group.List
import Mathlib.Data.List.MinMax
import Mathlib.Tactic.Linarith
import UwbRanging.Proofs.Statistics.Exact

/-!
What mean and variance say of numbers. The mean lies between the least and the greatest of them, and the variance
vanishes if and only if they are all equal. Moving all of them by the same amount moves the mean with them and leaves
the variance as it is.
-/

namespace UwbRanging.Statistics

section Deviations

variable {K : Type} [Field K]

/-- The sum of the squared distances from a number. -/
def squaredDeviations (m : K) (xs : List K) : K :=
  (xs.map fun x => (x - m) * (x - m)).sum

theorem sampleVariance_eq (xs : List K) : sampleVariance xs =
    if xs.length < 2 then 0 else squaredDeviations (xs.sum / xs.length) xs / ((xs.length - 1 : Nat) : K) :=
  rfl

theorem sum_map_add_left (a : K) (xs : List K) : (xs.map (a + ·)).sum = xs.length * a + xs.sum := by
  rw [List.sum_map_add, List.map_const', List.sum_replicate, nsmul_eq_mul, List.map_id']

theorem squaredDeviations_add (a m : K) (xs : List K) :
    squaredDeviations (a + m) (xs.map (a + ·)) = squaredDeviations m xs := by
  simp only [squaredDeviations, List.map_map, Function.comp_def, add_sub_add_left_eq_sub]

end Deviations

section Spread

variable {K : Type} [Field K] [LinearOrder K] [IsStrictOrderedRing K] {xs : List K}

theorem cast_length_pos (h : xs ≠ []) : (0 : K) < xs.length :=
  Nat.cast_pos.2 (List.length_pos_iff.2 h)

theorem average_add (h : xs ≠ []) (a : K) :
    (xs.map (a + ·)).sum / (xs.map (a + ·)).length = a + xs.sum / xs.length := by
  rw [sum_map_add_left, List.length_map, add_div, mul_div_cancel_left₀ _ (cast_length_pos h).ne']

theorem sampleVariance_add (a : K) (xs : List K) : sampleVariance (xs.map (a + ·)) = sampleVariance xs := by
  rw [sampleVariance_eq, sampleVariance_eq, List.length_map]
  split
  case isTrue => rfl
  case isFalse hlong =>
    have hxs : xs ≠ [] := fun hnil => hlong (by simp [hnil])
    have haverage := average_add hxs a
    rw [List.length_map] at haverage
    rw [haverage, squaredDeviations_add]

theorem le_average {lo : K} (h : xs ≠ []) (hlo : ∀ x ∈ xs, lo ≤ x) : lo ≤ xs.sum / xs.length := by
  rw [le_div_iff₀ (cast_length_pos h), mul_comm, ← nsmul_eq_mul]
  exact List.card_nsmul_le_sum xs lo hlo

theorem average_le {hi : K} (h : xs ≠ []) (hhi : ∀ x ∈ xs, x ≤ hi) : xs.sum / xs.length ≤ hi := by
  rw [div_le_iff₀ (cast_length_pos h), mul_comm, ← nsmul_eq_mul]
  exact List.sum_le_card_nsmul xs hi hhi

theorem minimum_le_average (h : xs ≠ []) : xs.minimum ≤ ((xs.sum / xs.length : K) : WithTop K) := by
  cases hmin : xs.minimum with
  | top => exact absurd (List.minimum_eq_top.1 hmin) h
  | coe lo => exact WithTop.coe_le_coe.2 (le_average h fun x hx => List.minimum_le_of_mem hx hmin)

theorem average_le_maximum (h : xs ≠ []) : ((xs.sum / xs.length : K) : WithBot K) ≤ xs.maximum := by
  cases hmax : xs.maximum with
  | bot => exact absurd (List.maximum_eq_bot.1 hmax) h
  | coe hi => exact WithBot.coe_le_coe.2 (average_le h fun x hx => List.le_maximum_of_mem hx hmax)

theorem nonneg_of_mem_squares {m d : K} (hd : d ∈ xs.map fun x => (x - m) * (x - m)) : 0 ≤ d := by
  obtain ⟨x, -, rfl⟩ := List.mem_map.1 hd
  exact mul_self_nonneg _

theorem squaredDeviations_nonneg (m : K) (xs : List K) : 0 ≤ squaredDeviations m xs :=
  List.sum_nonneg fun _ hd => nonneg_of_mem_squares hd

theorem squaredDeviations_eq_zero_iff {m : K} : squaredDeviations m xs = 0 ↔ ∀ x ∈ xs, x = m := by
  constructor
  · intro hsum x hx
    have hzero := List.all_zero_of_le_zero_le_of_sum_eq_zero (fun _ hd => nonneg_of_mem_squares hd) hsum
      (List.mem_map_of_mem hx)
    exact sub_eq_zero.1 (mul_self_eq_zero.1 hzero)
  · intro hequal
    refine List.sum_eq_zero fun d hd => ?_
    obtain ⟨x, hx, rfl⟩ := List.mem_map.1 hd
    rw [hequal x hx, sub_self, mul_zero]

theorem sampleVariance_nonneg (xs : List K) : 0 ≤ sampleVariance xs := by
  rw [sampleVariance_eq]
  split
  · exact le_rfl
  · exact div_nonneg (squaredDeviations_nonneg _ _) (Nat.cast_nonneg _)

/-- Values that are all equal are equal to their mean. -/
theorem eq_average_iff (h : xs ≠ []) : (∀ x ∈ xs, x = xs.sum / xs.length) ↔ ∀ x ∈ xs, ∀ y ∈ xs, x = y := by
  constructor
  · intro hmean x hx y hy
    exact (hmean x hx).trans (hmean y hy).symm
  · intro hequal x hx
    exact le_antisymm (le_average h fun y hy => (hequal x hx y hy).le) (average_le h fun y hy => (hequal x hx y hy).ge)

/-- Only equal values do not vary. -/
theorem sampleVariance_eq_zero_iff : sampleVariance xs = 0 ↔ ∀ x ∈ xs, ∀ y ∈ xs, x = y := by
  rw [sampleVariance_eq]
  split
  case isTrue hshort =>
    refine iff_of_true rfl ?_
    match xs, hshort with
    | [], _ => simp
    | [x], _ => simp
  case isFalse hlong =>
    have hxs : xs ≠ [] := fun hnil => hlong (by simp [hnil])
    have hcount : ((xs.length - 1 : Nat) : K) ≠ 0 := Nat.cast_ne_zero.2 (by omega)
    rw [div_eq_zero_iff, or_iff_left hcount, squaredDeviations_eq_zero_iff, eq_average_iff hxs]

end Spread

end UwbRanging.Statistics
