import Mathlib.Algebra.BigOperators.Ring.List
import Mathlib.Tactic.Ring
import UwbRanging.Proofs.Exact.Extended
import UwbRanging.Statistics.Moments

/-!
Mean and variance of numbers in exact arithmetic are the textbook ones.
-/

namespace UwbRanging.Statistics

open Extended

variable {K : Type} [Field K]

/-- Over one less than the number of values; a single value does not vary. -/
def sampleVariance (xs : List K) : K :=
  if xs.length < 2 then 0
  else (xs.map fun x => (x - xs.sum / xs.length) * (x - xs.sum / xs.length)).sum / ((xs.length - 1 : Nat) : K)

theorem sampleVariance_mul (f : K) (xs : List K) : sampleVariance (xs.map (f * ·)) = f ^ 2 * sampleVariance xs := by
  have hmean : (xs.map (f * ·)).sum / (xs.length : K) = f * (xs.sum / xs.length) := by
    rw [List.sum_map_mul_left, List.map_id', mul_div_assoc]
  have hsquare (x m : K) : (f * x - f * m) * (f * x - f * m) = f ^ 2 * ((x - m) * (x - m)) := by ring
  unfold sampleVariance
  rw [List.length_map, hmean, List.map_map]
  split
  · rw [mul_zero]
  · simp only [Function.comp_def, hsquare, List.sum_map_mul_left, mul_div_assoc]

variable [LinearOrder K] [FloorSemiring K] [SquareRoot K]

theorem exists_map_finite {values : List (Extended K)} (h : ∀ x ∈ values, Arith.isFinite x = true) :
    ∃ xs : List K, values = xs.map finite := by
  induction values with
  | nil => exact ⟨[], rfl⟩
  | cons x values ih =>
      obtain ⟨a, rfl⟩ := isFinite_iff.1 (h x List.mem_cons_self)
      obtain ⟨xs, rfl⟩ := ih fun y hy => h y (List.mem_cons_of_mem _ hy)
      exact ⟨a :: xs, rfl⟩

theorem sum_finite (xs : List K) : Arith.sum (xs.map finite) = finite xs.sum := by
  have hfrom (xs : List K) (a : K) : (xs.map finite).foldl (· + ·) (finite a) = finite (a + xs.sum) := by
    induction xs generalizing a with
    | nil => simp
    | cons x xs ih => rw [List.map_cons, List.foldl_cons, finite_add_finite, ih, List.sum_cons, add_assoc]
  rw [Arith.sum, zero_eq, neg_finite, hfrom, neg_zero, zero_add]

theorem mean_finite {xs : List K} (h : xs ≠ []) : mean (xs.map finite) = .ok (finite (xs.sum / xs.length)) := by
  have hcount : (xs.length : K) ≠ 0 := by simpa using h
  have hnonempty : (xs.map finite).isEmpty = false := by simpa using h
  rw [mean, hnonempty, sum_finite, List.length_map, ofNat_eq, finite_div_finite _ hcount]
  rfl

theorem variance_finite {xs : List K} (h : xs ≠ []) : variance (xs.map finite) = .ok (finite (sampleVariance xs)) := by
  have hsquares : (xs.map finite).map (fun v => Arith.square (v - finite (xs.sum / xs.length))) =
      (xs.map fun x => (x - xs.sum / xs.length) * (x - xs.sum / xs.length)).map finite := by
    simp [Arith.square]
  rw [variance, mean_finite h, sampleVariance, List.length_map]
  split
  · rw [zero_eq]
    rfl
  · have hcount : ((xs.length - 1 : Nat) : K) ≠ 0 := Nat.cast_ne_zero.2 (by omega)
    change Except.ok _ = _
    rw [hsquares, sum_finite, ofNat_eq, finite_div_finite _ hcount]

end UwbRanging.Statistics
