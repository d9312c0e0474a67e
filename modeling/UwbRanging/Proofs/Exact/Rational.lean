import Mathlib.Data.Rat.Floor
import Mathlib.Data.Rat.Sqrt
import UwbRanging.Proofs.Exact.Extended
import UwbRanging.Statistics.Summary

/-!
Exact arithmetic that runs. A rational number has its square root if that is rational, and of Student's quantiles some
are known that are whole numbers at rational shares; elsewhere the value is no number.
-/

namespace UwbRanging.Extended

open Statistics

instance : SquareRoot ℚ where
  sqrt
    | finite x => if x.sqrt * x.sqrt = x then finite x.sqrt else nan
    | infinite false => infinite false
    | _ => nan

/-- The median is zero. For eight degrees of freedom, one leaves 1808 parts of 2187 below it. -/
instance : StudentQuantile (Extended ℚ) where
  quantile p dof :=
    if !Arith.isProbability p then .error .invalidProbability
    else if dof = 0 then .error .emptyInput
    else if p = finite (1 / 2) then .ok (finite 0)
    else if dof = 8 ∧ p = finite (1808 / 2187) then .ok (finite 1)
    else if dof = 8 ∧ p = finite (379 / 2187) then .ok (finite (-1))
    else .ok nan

theorem sqrt_finite (x : ℚ) :
    SquareRoot.sqrt (finite x) = if x.sqrt * x.sqrt = x then finite x.sqrt else nan :=
  rfl

/-- A factor of the root is squared under it. -/
theorem sqrt_square_mul {f : ℚ} (hf : 0 < f) (x : ℚ) :
    SquareRoot.sqrt (finite (f ^ 2 * x)) = SquareRoot.sqrt (finite x) * finite f := by
  have hroot : (∃ q, q * q = f ^ 2 * x) ↔ ∃ q, q * q = x := by
    constructor
    · rintro ⟨q, hq⟩
      exact ⟨q / f, by field_simp; linarith⟩
    · rintro ⟨q, rfl⟩
      exact ⟨f * q, by ring⟩
  rw [mul_finite _ hf, sqrt_finite, sqrt_finite]
  by_cases hx : ∃ q, q * q = x
  · obtain ⟨q, rfl⟩ := hx
    have hsquare : f ^ 2 * (q * q) = f * q * (f * q) := by ring
    rw [hsquare, Rat.sqrt_eq, Rat.sqrt_eq, if_pos (abs_mul_abs_self _), if_pos (abs_mul_abs_self _), abs_mul,
      abs_of_pos hf, scale_finite]
  · rw [if_neg (mt (Rat.exists_mul_self x).2 hx), if_neg (mt (Rat.exists_mul_self _).2 (mt hroot.1 hx)), scale_nan]

end UwbRanging.Extended
