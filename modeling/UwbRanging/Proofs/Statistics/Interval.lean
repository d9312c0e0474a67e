import UwbRanging.Proofs.Exact.Real
import UwbRanging.Proofs.Statistics.Spread
import UwbRanging.Proofs.Statistics.Summary

/-!
What a summary says of real numbers. Its mean lies between the least and the greatest of them and in the middle of the
interval, and its deviation vanishes if and only if they are all equal. A higher level gives an interval that contains
the one of a lower level.
-/

namespace UwbRanging.Statistics

open Extended

/-- What a summary of some real numbers says of them. -/
structure Summary.Describes (s : Summary ℝ) (xs : List ℝ) : Prop where
  count_eq : s.count = xs.length
  minimum_le_mean : xs.minimum ≤ s.mean
  mean_le_maximum : s.mean ≤ xs.maximum
  stdDev_nonneg : 0 ≤ s.stdDev
  stdDev_eq_zero_iff : s.stdDev = 0 ↔ ∀ x ∈ xs, ∀ y ∈ xs, x = y
  ciLow_le_mean : s.ciLow ≤ s.mean
  mean_le_ciHigh : s.mean ≤ s.ciHigh
  mean_halfway : s.mean - s.ciLow = s.ciHigh - s.mean

def Summary.toExtended (s : Summary ℝ) : Summary (Extended ℝ) :=
  ⟨s.count, finite s.mean, finite s.stdDev, finite s.ciLow, finite s.ciHigh⟩

/-- The summary after all values have moved by the same amount. -/
def Summary.shift (a : ℝ) (s : Summary ℝ) : Summary ℝ :=
  { s with mean := a + s.mean, ciLow := a + s.ciLow, ciHigh := a + s.ciHigh }

/-- The summary whose interval reaches as far as given to both sides of the mean. -/
noncomputable def summaryAround (xs : List ℝ) (reach : ℝ) : Summary ℝ :=
  let mean := xs.sum / xs.length
  ⟨xs.length, mean, √(sampleVariance xs), mean - reach, mean + reach⟩

theorem summaryAround_add {xs : List ℝ} (h : xs ≠ []) (a reach : ℝ) :
    summaryAround (xs.map (a + ·)) reach = (summaryAround xs reach).shift a := by
  have hmean := average_add h a
  rw [List.length_map] at hmean
  simp only [summaryAround, Summary.shift, sampleVariance_add, List.length_map, hmean, add_sub_assoc, add_assoc]

theorem describes_summaryAround {xs : List ℝ} (h : xs ≠ []) {reach : ℝ} (hreach : 0 ≤ reach) :
    (summaryAround xs reach).Describes xs where
  count_eq := rfl
  minimum_le_mean := minimum_le_average h
  mean_le_maximum := average_le_maximum h
  stdDev_nonneg := Real.sqrt_nonneg _
  stdDev_eq_zero_iff := (Real.sqrt_eq_zero (sampleVariance_nonneg xs)).trans sampleVariance_eq_zero_iff
  ciLow_le_mean := sub_le_self _ hreach
  mean_le_ciHigh := le_add_of_nonneg_right hreach
  mean_halfway := by simp only [summaryAround, sub_sub_cancel, add_sub_cancel_left]

section Quantile

variable [StudentQuantile (Extended ℝ)]

/-- The quantile for some degrees of freedom: a number for each probability, which rises with it and is not negative
from the median on. -/
structure StudentQuantile.Rising (dof : UInt32) : Prop where
  exists_number {p : ℝ} {t : Extended ℝ} : 0 < p → p < 1 → StudentQuantile.quantile (finite p) dof = .ok t →
    ∃ x, t = finite x
  mono {p q t u : ℝ} : 0 < p → p ≤ q → q < 1 → StudentQuantile.quantile (finite p) dof = .ok (finite t) →
    StudentQuantile.quantile (finite q) dof = .ok (finite u) → t ≤ u
  nonneg {p t : ℝ} : 1 / 2 ≤ p → p < 1 → StudentQuantile.quantile (finite p) dof = .ok (finite t) → 0 ≤ t

/-- The interval of a single value is a point, that of more values reaches as far as the quantile says. -/
theorem reachOf_real {n : Nat} (hquantile : StudentQuantile.Rising (UInt32.ofNat (n - 1))) {c : ℝ} (hzero : 0 < c)
    (hone : c < 1) {s : ℝ} {half : Extended ℝ} (h : reachOf n (finite s) (finite c) = .ok half) :
    n < 2 ∧ half = finite 0 ∨
      2 ≤ n ∧ ∃ t, StudentQuantile.quantile (finite ((1 + c) / 2)) (UInt32.ofNat (n - 1)) = .ok (finite t) ∧
        half = finite (t * s / √n) := by
  unfold reachOf at h
  split at h
  case isTrue hshort =>
    cases h
    exact .inl ⟨hshort, zero_eq⟩
  case isFalse hlong =>
    rw [level_real] at h
    obtain ⟨t, ht, rfl⟩ := map_eq_ok_iff.1 h
    obtain ⟨x, rfl⟩ := hquantile.exists_number (by linarith) (by linarith) ht
    have hroot : √(n : ℝ) ≠ 0 := (Real.sqrt_pos.2 (Nat.cast_pos.2 (by omega))).ne'
    refine .inr ⟨not_lt.1 hlong, x, ht, ?_⟩
    rw [ofNat_eq, sqrt_real (Nat.cast_nonneg n), finite_mul_finite, finite_div_finite _ hroot]

variable {n : Nat} (hquantile : StudentQuantile.Rising (UInt32.ofNat (n - 1))) {s : ℝ} (hs : 0 ≤ s)
include hquantile hs

theorem exists_reach {c : ℝ} (hzero : 0 < c) (hone : c < 1) {half : Extended ℝ}
    (h : reachOf n (finite s) (finite c) = .ok half) : ∃ reach, half = finite reach ∧ 0 ≤ reach := by
  obtain ⟨-, rfl⟩ | ⟨-, t, ht, rfl⟩ := reachOf_real hquantile hzero hone h
  · exact ⟨0, rfl, le_rfl⟩
  · have hpos : 0 ≤ t := hquantile.nonneg (by linarith) (by linarith) ht
    exact ⟨_, rfl, by positivity⟩

/-- A higher level reaches at least as far. -/
theorem reach_mono {c₁ c₂ r₁ r₂ : ℝ} (hzero : 0 < c₁) (hle : c₁ ≤ c₂) (hone : c₂ < 1)
    (h₁ : reachOf n (finite s) (finite c₁) = .ok (finite r₁))
    (h₂ : reachOf n (finite s) (finite c₂) = .ok (finite r₂)) : r₁ ≤ r₂ := by
  obtain ⟨hshort, hr₁⟩ | ⟨hlong, t, ht, hr₁⟩ := reachOf_real hquantile hzero (hle.trans_lt hone) h₁
  · obtain ⟨-, hr₂⟩ | ⟨hlong, -⟩ := reachOf_real hquantile (hzero.trans_le hle) hone h₂
    · cases hr₁
      cases hr₂
      exact le_rfl
    · omega
  · obtain ⟨hshort, -⟩ | ⟨-, u, hu, hr₂⟩ := reachOf_real hquantile (hzero.trans_le hle) hone h₂
    · omega
    · cases hr₁
      cases hr₂
      have htu : t ≤ u := hquantile.mono (by linarith) (by linarith) (by linarith) ht hu
      gcongr

end Quantile

section Summaries

variable {xs : List ℝ} {c : ℝ}

theorem stdDev_real (h : xs ≠ []) : stdDev (xs.map finite) = .ok (finite √(sampleVariance xs)) := by
  rw [stdDev, variance_finite h]
  exact congrArg Except.ok (sqrt_real (sampleVariance_nonneg xs))

variable [StudentQuantile (Extended ℝ)]

theorem summarize_real (h : xs ≠ []) (hzero : 0 < c) (hone : c < 1) :
    summarize (xs.map finite) (finite c) =
      (reachOf xs.length (finite √(sampleVariance xs)) (finite c)).map fun half =>
        ⟨xs.length, finite (xs.sum / xs.length), finite √(sampleVariance xs), finite (xs.sum / xs.length) - half,
          finite (xs.sum / xs.length) + half⟩ := by
  rw [summarize_of_isProbability (isProbability_real.2 ⟨hzero, hone⟩), mean_finite h, stdDev_real h, List.length_map]
  change (reachOf xs.length (finite √(sampleVariance xs)) (finite c) >>= fun half => _) = _
  cases reachOf xs.length (finite √(sampleVariance xs)) (finite c) <;> rfl

/-- Whether there is a summary is up to the quantile, and what it is to the reach of the interval. -/
theorem summarize_real_eq_ok_iff (h : xs ≠ []) (hquantile : StudentQuantile.Rising (UInt32.ofNat (xs.length - 1)))
    (hzero : 0 < c) (hone : c < 1) {summary : Summary (Extended ℝ)} :
    summarize (xs.map finite) (finite c) = .ok summary ↔
      ∃ reach, 0 ≤ reach ∧ reachOf xs.length (finite √(sampleVariance xs)) (finite c) = .ok (finite reach) ∧
        summary = (summaryAround xs reach).toExtended := by
  have haround (reach : ℝ) : (⟨xs.length, finite (xs.sum / xs.length), finite √(sampleVariance xs),
      finite (xs.sum / xs.length) - finite reach, finite (xs.sum / xs.length) + finite reach⟩ : Summary (Extended ℝ)) =
        (summaryAround xs reach).toExtended := by
    rw [finite_sub_finite, finite_add_finite]
    rfl
  rw [summarize_real h hzero hone, map_eq_ok_iff]
  constructor
  · rintro ⟨half, hhalf, rfl⟩
    obtain ⟨reach, rfl, hreach⟩ := exists_reach hquantile (Real.sqrt_nonneg _) hzero hone hhalf
    exact ⟨reach, hreach, hhalf, haround reach⟩
  · rintro ⟨reach, -, hhalf, rfl⟩
    exact ⟨finite reach, hhalf, haround reach⟩

/-- Two summaries of the same numbers, the second at a level at least as high, agree on mean and deviation, and the
interval of the second contains that of the first. Each describes the numbers, and moves with them if all are moved by
one amount, at an unchanged deviation. -/
theorem summarize_at_two_levels (h : xs ≠ []) {c₁ c₂ : ℝ} (hzero : 0 < c₁) (hle : c₁ ≤ c₂) (hone : c₂ < 1)
    (hquantile : StudentQuantile.Rising (UInt32.ofNat (xs.length - 1))) {s₁ s₂ : Summary (Extended ℝ)}
    (h₁ : summarize (xs.map finite) (finite c₁) = .ok s₁) (h₂ : summarize (xs.map finite) (finite c₂) = .ok s₂) :
    ∃ r₁ r₂ : Summary ℝ, s₁ = r₁.toExtended ∧ s₂ = r₂.toExtended ∧ r₁.Describes xs ∧ r₂.Describes xs ∧
      (r₁.mean = r₂.mean ∧ r₁.stdDev = r₂.stdDev ∧ r₂.ciLow ≤ r₁.ciLow ∧ r₁.ciHigh ≤ r₂.ciHigh) ∧
      ∀ a, summarize ((xs.map (a + ·)).map finite) (finite c₁) = .ok (r₁.shift a).toExtended ∧
        (r₁.shift a).stdDev = r₁.stdDev := by
  obtain ⟨r₁, hr₁, hreach₁, rfl⟩ := (summarize_real_eq_ok_iff h hquantile hzero (hle.trans_lt hone)).1 h₁
  obtain ⟨r₂, hr₂, hreach₂, rfl⟩ := (summarize_real_eq_ok_iff h hquantile (hzero.trans_le hle) hone).1 h₂
  have hwider : r₁ ≤ r₂ := reach_mono hquantile (Real.sqrt_nonneg _) hzero hle hone hreach₁ hreach₂
  refine ⟨_, _, rfl, rfl, describes_summaryAround h hr₁, describes_summaryAround h hr₂,
    ⟨rfl, rfl, sub_le_sub_left hwider _, add_le_add_right hwider _⟩, fun a => ⟨?_, rfl⟩⟩
  have hmoved : xs.map (a + ·) ≠ [] := by simpa using h
  have hlength : (xs.map (a + ·)).length = xs.length := List.length_map _
  rw [← summaryAround_add h]
  refine (summarize_real_eq_ok_iff hmoved (hlength ▸ hquantile) hzero (hle.trans_lt hone)).2 ⟨r₁, hr₁, ?_, rfl⟩
  rw [hlength, sampleVariance_add, hreach₁]

end Summaries

/-- For one degree of freedom the quantile is a tangent, which rises from the median on. -/
theorem rising_real_one : StudentQuantile.Rising 1 where
  exists_number hzero hone ht := by
    rw [quantile_real_one hzero hone] at ht
    cases ht
    exact ⟨_, rfl⟩
  mono {p q t u} hzero hle hone ht hu := by
    rw [quantile_real_one hzero (hle.trans_lt hone)] at ht
    rw [quantile_real_one (hzero.trans_le hle) hone] at hu
    cases ht
    cases hu
    have hpi := Real.pi_pos
    exact Real.strictMonoOn_tan.monotoneOn ⟨by nlinarith, by nlinarith⟩ ⟨by nlinarith, by nlinarith⟩ (by nlinarith)
  nonneg {p t} hhalf hone ht := by
    rw [quantile_real_one (by linarith) hone] at ht
    cases ht
    have hpi := Real.pi_pos
    exact Real.tan_nonneg_of_nonneg_of_le_pi_div_two (by nlinarith) (by nlinarith)

theorem reachOf_two_values {c : ℝ} (hzero : 0 < c) (hone : c < 1) :
    reachOf 2 (finite √8) (finite c) = .ok (finite (2 * Real.tan (Real.pi * (c / 2)))) := by
  have hroot : √(8 : ℝ) / √2 = 2 := by
    rw [← Real.sqrt_div (by norm_num), Real.sqrt_eq_iff_mul_self_eq] <;> norm_num
  have hcount : (((2 : Nat) : ℝ)) = 2 := Nat.cast_ofNat
  have hangle : (1 + c) / 2 - 1 / 2 = c / 2 := by ring
  have hquantile := quantile_real_one (p := (1 + c) / 2) (by linarith) (by linarith)
  rw [reachOf, if_neg (by decide), level_real]
  change Except.map _ (StudentQuantile.quantile (finite ((1 + c) / 2)) 1) = _
  rw [hquantile, hangle]
  refine congrArg Except.ok ?_
  change finite _ * finite √8 / _ = _
  rw [ofNat_eq, hcount, sqrt_real zero_le_two, finite_mul_finite, finite_div_finite _ (by positivity), mul_div_assoc,
    hroot, mul_comm]

/-- Of two values the interval at one half reaches from one to the other, and at two thirds farther. -/
theorem summarize_at_two_levels_two_values :
    summarize ([10, 14].map finite) (finite (1 / 2 : ℝ)) = .ok ⟨2, finite 12, finite √8, finite 10, finite 14⟩ ∧
      summarize ([10, 14].map finite) (finite (2 / 3 : ℝ)) =
        .ok ⟨2, finite 12, finite √8, finite (12 - 2 * √3), finite (12 + 2 * √3)⟩ ∧
      12 - 2 * √3 ≤ (10 : ℝ) ∧ (14 : ℝ) ≤ 12 + 2 * √3 := by
  have hvalues : ([10, 14] : List ℝ) ≠ [] := List.cons_ne_nil _ _
  have hmean : ([10, 14] : List ℝ).sum / (([10, 14] : List ℝ).length : ℝ) = 12 := by norm_num
  have hvariance : sampleVariance ([10, 14] : List ℝ) = 8 := by norm_num [sampleVariance]
  have hsummary {c r : ℝ} (hzero : 0 < c) (hone : c < 1) (hpos : 0 ≤ r)
      (htan : 2 * Real.tan (Real.pi * (c / 2)) = r) : summarize ([10, 14].map finite) (finite c) =
        .ok ⟨2, finite 12, finite √8, finite (12 - r), finite (12 + r)⟩ := by
    refine (summarize_real_eq_ok_iff hvalues rising_real_one hzero hone).2 ⟨r, hpos, ?_, ?_⟩
    · rw [hvariance, ← htan]
      exact reachOf_two_values hzero hone
    · simp only [summaryAround, Summary.toExtended, hmean, hvariance]
      rfl
  have hlow := hsummary (c := 1 / 2) (r := 2) (by norm_num) (by norm_num) zero_le_two (by
    rw [show Real.pi * (1 / 2 / 2) = Real.pi / 4 by ring, Real.tan_pi_div_four, mul_one])
  have hhigh := hsummary (c := 2 / 3) (r := 2 * √3) (by norm_num) (by norm_num) (by positivity) (by
    rw [show Real.pi * (2 / 3 / 2) = Real.pi / 3 by ring, Real.tan_pi_div_three])
  rw [show (12 : ℝ) - 2 = 10 by norm_num, show (12 : ℝ) + 2 = 14 by norm_num] at hlow
  obtain ⟨r₁, r₂, hr₁, hr₂, -, -, ⟨-, -, hciLow, hciHigh⟩, -⟩ := summarize_at_two_levels hvalues (by norm_num)
    (by norm_num) (by norm_num) rising_real_one hlow hhigh
  simp only [Summary.toExtended, Summary.mk.injEq, Extended.finite.injEq] at hr₁ hr₂
  obtain ⟨-, -, -, hlow₁, hhigh₁⟩ := hr₁
  obtain ⟨-, -, -, hlow₂, hhigh₂⟩ := hr₂
  rw [← hlow₁, ← hlow₂] at hciLow
  rw [← hhigh₁, ← hhigh₂] at hciHigh
  exact ⟨hlow, hhigh, hciLow, hciHigh⟩

end UwbRanging.Statistics
