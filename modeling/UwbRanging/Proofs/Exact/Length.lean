import Mathlib.Tactic.FieldSimp
import UwbRanging.Length
import UwbRanging.Proofs.Exact.Extended

/-!
The factors between units in exact arithmetic: positive numbers, and from one unit to another over a third they
multiply.
-/

namespace UwbRanging.LengthUnit

open Extended

section Ratio

variable {K : Type} [Field K]

/-- The length of a unit in meters. -/
def inMeters : LengthUnit → K
  | ticks => 299702547236 / 1000 * (1 / 1000000000000000) * 15650
  | centimeters => 1 / 100
  | meters => 1

/-- The factor between two units as a number. -/
def ratioTo (u v : LengthUnit) : K :=
  u.inMeters / v.inMeters

variable [LinearOrder K] [IsStrictOrderedRing K] (u v w : LengthUnit)

theorem inMeters_pos : 0 < (u.inMeters : K) := by
  cases u <;> norm_num [inMeters]

theorem ratioTo_pos : 0 < (u.ratioTo v : K) :=
  div_pos u.inMeters_pos v.inMeters_pos

/-- To convert twice is to convert once. -/
theorem ratioTo_mul : (v.ratioTo w * u.ratioTo v : K) = u.ratioTo w := by
  have hv : (v.inMeters : K) ≠ 0 := v.inMeters_pos.ne'
  unfold ratioTo
  field_simp

end Ratio

variable {K : Type} [Field K] [LinearOrder K] [FloorSemiring K] [SquareRoot K]

theorem metersPerUnit_eq (u : LengthUnit) : (u.metersPerUnit : Extended K) = finite u.inMeters := by
  cases u with
  | ticks => simp [metersPerUnit, metersPerTick, speedOfLight, tickFemtoseconds, ratio_eq, inMeters]
  | centimeters => simp [metersPerUnit, ratio_eq, inMeters]
  | meters => simp [metersPerUnit, inMeters]

theorem factorTo_eq [IsStrictOrderedRing K] (u v : LengthUnit) :
    (u.factorTo v : Extended K) = finite (u.ratioTo v) := by
  have hv : (v.inMeters : K) ≠ 0 := v.inMeters_pos.ne'
  unfold factorTo ratioTo
  split
  · subst u
    rw [one_eq, div_self hv]
  · rw [metersPerUnit_eq, metersPerUnit_eq, finite_div_finite _ hv]

theorem isFinite_mul_factorTo [IsStrictOrderedRing K] {x : Extended K} (h : Arith.isFinite x = true)
    (u v : LengthUnit) : Arith.isFinite (x * u.factorTo v) = true := by
  obtain ⟨a, rfl⟩ := isFinite_iff.1 h
  rw [factorTo_eq, finite_mul_finite]
  exact isFinite_iff.2 ⟨_, rfl⟩

theorem mul_factorTo_mul_factorTo [IsStrictOrderedRing K] (x : Extended K) (u v w : LengthUnit) :
    x * u.factorTo v * v.factorTo w = x * u.factorTo w := by
  rw [factorTo_eq, factorTo_eq, factorTo_eq, mul_finite _ (ratioTo_pos u v), mul_finite _ (ratioTo_pos v w),
    mul_finite _ (ratioTo_pos u w), scale_scale, ratioTo_mul]

end UwbRanging.LengthUnit
