import Mathlib.Algebra.Order.Archimedean.Real.Basic
import Mathlib.Analysis.Real.Sqrt
import Mathlib.Analysis.SpecialFunctions.Trigonometric.Basic
import UwbRanging.Proofs.Exact.Extended
import UwbRanging.Statistics.Summary

/-!
Exact arithmetic on the real numbers, where every number that is not negative has its root. Of Student's quantiles
those for one degree of freedom are known, which are tangents; elsewhere the value is no number.
-/

namespace UwbRanging.Extended

open Statistics

noncomputable instance : SquareRoot ℝ where
  sqrt
    | finite x => if x < 0 then nan else finite √x
    | infinite false => infinite false
    | _ => nan

theorem sqrt_real {x : ℝ} (h : 0 ≤ x) : Arith.sqrt (finite x : Extended ℝ) = finite √x :=
  if_neg h.not_gt

theorem isProbability_real {p : ℝ} : Arith.isProbability (finite p) = true ↔ 0 < p ∧ p < 1 := by
  simp [Arith.isProbability]

/-- The level of a quantile that leaves out as much on both sides. -/
theorem level_real (c : ℝ) : (Arith.one + finite c) / Arith.ofNat 2 = (finite ((1 + c) / 2) : Extended ℝ) := by
  rw [one_eq, finite_add_finite, ofNat_eq, Nat.cast_ofNat, finite_div_finite _ two_ne_zero]

noncomputable instance : StudentQuantile (Extended ℝ) where
  quantile p dof :=
    if !Arith.isProbability p then .error .invalidProbability
    else if dof = 0 then .error .emptyInput
    else match p with
      | finite x => .ok (if dof = 1 then finite (-(Real.tan (Real.pi * x))⁻¹) else nan)
      | _ => .ok nan

theorem exists_quantile_real {p : Extended ℝ} {dof : UInt32} (hp : Arith.isProbability p = true) (hdof : dof ≠ 0) :
    ∃ t, StudentQuantile.quantile p dof = .ok t := by
  change ∃ t, (if !Arith.isProbability p then _ else _) = Except.ok t
  rw [hp, if_neg (by decide), if_neg hdof]
  cases p <;> exact ⟨_, rfl⟩

theorem quantile_real_one {p : ℝ} (hzero : 0 < p) (hone : p < 1) :
    StudentQuantile.quantile (finite p) 1 = .ok (finite (Real.tan (Real.pi * (p - 1 / 2)))) := by
  have hp : Arith.isProbability (finite p) = true := isProbability_real.2 ⟨hzero, hone⟩
  have hangle : Real.pi * (p - 1 / 2) = -(Real.pi / 2 - Real.pi * p) := by ring
  rw [hangle, Real.tan_neg, Real.tan_pi_div_two_sub]
  change (if !Arith.isProbability (finite p) then _ else _) = _
  rw [hp]
  rfl

end UwbRanging.Extended
