import UwbRanging.Proofs.Decimal.Binary64
import UwbRanging.Proofs.Decimal.Quotient

/-!
Which decimals are read as a given binary64 number: those that lie no further from it than half way to its neighbours.
-/

namespace UwbRanging

namespace Binary64

/-- The numbers that round to a magnitude: they lie within half a unit of the mantissa, below a power of two within a
quarter, and the ends belong to the even mantissa. -/
structure RoundsTo (mantissa : ℕ) (exponent : ℤ) (v : ℚ) : Prop
    extends Quotient.HalfEven (v * 2 ^ (-exponent)) mantissa where
  lowLeading : mantissa = 2 ^ 52 → -1074 < exponent → (mantissa : ℚ) - 1 / 4 ≤ v * 2 ^ (-exponent)

theorem Canonical.magnitudeBits_le {m : ℕ} {e : ℤ} (h : Canonical m e) : magnitudeBits m e ≤ infiniteBits := by
  have hgreatest := h.greatest
  have hnarrow := h.narrow
  have hbits : infiniteBits = 2047 * 2 ^ 52 := rfl
  rw [hbits, magnitudeBits]
  omega

end Binary64

namespace Quotient

open Binary64

theorem toRat_unscaleBinary (q : Quotient) (e : ℤ) : (q.unscaleBinary e).toRat = q.toRat * 2 ^ (-e) := by
  rw [unscaleBinary, toRat_timesPower (by decide), Nat.cast_ofNat]

theorem den_unscaleBinary_pos {q : Quotient} (hden : 0 < q.den) (e : ℤ) : 0 < (q.unscaleBinary e).den :=
  den_timesPower_pos hden (by decide) (-e)

theorem nearestBits_of_parts {q : Quotient} (hnum : 0 < q.num) {m : ℕ} {e : ℤ}
    (he : max (q.leadingBit - 52) (-1074) = e) (hm : (q.unscaleBinary e).roundHalfEven = m)
    (hmax : magnitudeBits m e ≤ infiniteBits) : q.nearestBits = magnitudeBits m e := by
  rw [magnitudeBits] at hmax ⊢
  simp only [nearestBits, if_neg (Nat.ne_of_gt hnum), he, hm, leadingOne_eq]
  exact Nat.min_eq_right hmax

theorem scaled_lt_iff (v : ℚ) (e k : ℤ) : v * 2 ^ (-e) < 2 ^ k ↔ v < 2 ^ (k + e) := by
  rw [zpow_neg, ← div_eq_mul_inv, div_lt_iff₀ (zpow_pos (by norm_num) e), ← zpow_add₀ (by norm_num)]

section Positive

variable {q : Quotient} (hnum : 0 < q.num) (hden : 0 < q.den) {m : ℕ} {e : ℤ} (hcanonical : Canonical m e)
  (h : RoundsTo m e q.toRat)

include hnum hden

theorem leadingBit_lt_of_scaled (k : ℤ) : q.leadingBit < k + e ↔ q.toRat * 2 ^ (-e) < 2 ^ k := by
  rw [leadingBit_lt_iff hnum hden, scaled_lt_iff]

include hcanonical h

theorem leadingBit_lt : q.leadingBit < 53 + e := by
  have hnarrow : (m : ℚ) + 1 ≤ 2 ^ (53 : ℤ) := by exact_mod_cast hcanonical.narrow
  have hhigh := h.high
  exact (leadingBit_lt_of_scaled hnum hden 53).2 (by linarith)

/-- With all its bits, or at the least exponent, the mantissa comes out as it is. -/
theorem nearestBits_of_full (hfull : (2 : ℚ) ^ (52 : ℤ) ≤ q.toRat * 2 ^ (-e) ∨ e = -1074) :
    q.nearestBits = magnitudeBits m e := by
  have hbelow := leadingBit_lt hnum hden hcanonical h
  have hleast := hcanonical.least
  have he : max (q.leadingBit - 52) (-1074) = e := by
    rcases hfull with hfull | hfull
    · have hreached := mt (leadingBit_lt_of_scaled hnum hden 52).1 (not_lt.2 hfull)
      omega
    · omega
  have hround : (q.unscaleBinary e).roundHalfEven = m := by
    apply roundHalfEven_eq (den_unscaleBinary_pos hden e)
    rw [toRat_unscaleBinary]
    exact h.toHalfEven
  exact nearestBits_of_parts hnum he hround hcanonical.magnitudeBits_le

omit hnum hden in
/-- Only a power of two has numbers below it that round to it. -/
theorem eq_of_scaled_lt (hless : q.toRat * 2 ^ (-e) < 2 ^ (52 : ℤ)) (he : -1074 < e) : m = 2 ^ 52 := by
  by_contra hmore
  have hnext : 2 ^ 52 + 1 ≤ m := Nat.lt_of_le_of_ne (hcanonical.leading he) (Ne.symm hmore)
  have hnext' : (2 ^ 52 + 1 : ℚ) ≤ m := by exact_mod_cast hnext
  have hlow := h.low
  generalize q.toRat * 2 ^ (-e) = w at hless hlow
  norm_num at hless
  linarith

/-- Below a power of two the exponent is one less, and rounding carries. -/
theorem nearestBits_of_carry (hless : q.toRat * 2 ^ (-e) < 2 ^ (52 : ℤ)) (he : -1074 < e) :
    q.nearestBits = magnitudeBits m e := by
  have hm : m = 2 ^ 52 := eq_of_scaled_lt hcanonical h hless he
  subst hm
  have hquarter := h.lowLeading rfl he
  push_cast at hquarter
  have hdouble : q.toRat * 2 ^ (-(e - 1)) = q.toRat * 2 ^ (-e) * 2 := by
    rw [neg_sub, sub_eq_neg_add, zpow_add₀ (by norm_num), zpow_one, mul_assoc]
  have hreached : ¬ q.leadingBit < 51 + e := by
    rw [leadingBit_lt_of_scaled hnum hden, not_lt]
    norm_num at hquarter ⊢
    linarith
  have hbelow : q.leadingBit < 52 + e := (leadingBit_lt_of_scaled hnum hden 52).2 hless
  have hround : (q.unscaleBinary (e - 1)).roundHalfEven = 2 ^ 53 := by
    apply roundHalfEven_eq (den_unscaleBinary_pos hden (e - 1))
    rw [toRat_unscaleBinary, hdouble]
    generalize q.toRat * 2 ^ (-e) = w at hless hquarter
    norm_num at hless hquarter
    refine ⟨?_, ?_, fun hodd => ?_⟩
    · push_cast
      norm_num
      linarith
    · push_cast
      norm_num
      linarith
    · norm_num at hodd
  have hcarry : magnitudeBits (2 ^ 53) (e - 1) = magnitudeBits (2 ^ 52) e := by
    unfold magnitudeBits
    omega
  rw [← hcarry]
  exact nearestBits_of_parts hnum (by omega) hround (by rw [hcarry]; exact hcanonical.magnitudeBits_le)

/-- What rounds to a magnitude is nearest to it. -/
theorem nearestBits_eq : q.nearestBits = magnitudeBits m e := by
  by_cases hfull : (2 : ℚ) ^ (52 : ℤ) ≤ q.toRat * 2 ^ (-e) ∨ e = -1074
  · exact nearestBits_of_full hnum hden hcanonical h hfull
  · obtain ⟨hless, hleast⟩ := not_or.1 hfull
    have hle := hcanonical.least
    exact nearestBits_of_carry hnum hden hcanonical h (not_le.1 hless) (by omega)

end Positive

end Quotient

namespace Decimal

open Binary64

section Bounds

variable {m : ℕ} {e : ℤ} (hcanonical : Canonical m e) {digits places : ℕ} (h : RoundsTo m e (digits / 10 ^ places))

include hcanonical h

theorem pow_le_of_roundsTo (hpos : 0 < m) : 10 ^ places ≤ digits * 2 ^ 1075 := by
  have hone : (1 : ℚ) ≤ m := by exact_mod_cast hpos
  have hten : (0 : ℚ) < 10 ^ places := by positivity
  have hlow : (1 / 2 : ℚ) ≤ digits / 10 ^ places * 2 ^ (-e) := le_trans (by linarith) h.low
  have hexponent : -e ≤ 1074 := neg_le.1 hcanonical.least
  have hscale : (2 : ℚ) ^ (-e) ≤ 2 ^ (1074 : ℤ) := zpow_le_zpow_right₀ (by norm_num) hexponent
  have hmul : (1 / 2 : ℚ) ≤ digits / 10 ^ places * 2 ^ (1074 : ℤ) :=
    hlow.trans (mul_le_mul_of_nonneg_left hscale (div_nonneg (Nat.cast_nonneg _) hten.le))
  rw [div_mul_eq_mul_div, le_div_iff₀ hten] at hmul
  have hdouble : (2 : ℚ) ^ (1075 : ℤ) = 2 ^ (1074 : ℤ) * 2 := zpow_add_one₀ two_ne_zero 1074
  have hcast : (10 ^ places : ℚ) ≤ digits * 2 ^ (1075 : ℤ) := by
    rw [hdouble]
    generalize (2 : ℚ) ^ (1074 : ℤ) = scale at hmul
    linarith
  exact_mod_cast hcast

theorem le_pow_of_roundsTo : digits ≤ 2 ^ 1024 * 10 ^ places := by
  have hnarrow : (m : ℚ) + 1 ≤ 2 ^ (53 : ℤ) := by exact_mod_cast hcanonical.narrow
  have hten : (0 : ℚ) < 10 ^ places := by positivity
  have hhigh : (digits : ℚ) / 10 ^ places * 2 ^ (-e) < 2 ^ (53 : ℤ) := h.high.trans_lt (by linarith)
  rw [Quotient.scaled_lt_iff] at hhigh
  have hexponent : 53 + e ≤ 1024 := by
    have hgreatest := hcanonical.greatest
    omega
  have hbound := hhigh.trans_le (zpow_le_zpow_right₀ (by norm_num) hexponent)
  rw [div_lt_iff₀ hten] at hbound
  exact_mod_cast hbound.le

end Bounds

/-- Three decimal digits take ten bits at most. -/
theorem log2_le_of_le_mul_pow {digits places : ℕ} (hdigits : digits ≠ 0) (h : digits ≤ 2 ^ 1024 * 10 ^ places) :
    digits.log2 ≤ 1024 + 10 * (places / 3 + 1) := by
  have hpow : 2 ^ digits.log2 ≤ 2 ^ (1024 + 10 * (places / 3 + 1)) :=
    calc 2 ^ digits.log2 ≤ 2 ^ 1024 * 10 ^ places := (Nat.log2_self_le hdigits).trans h
      _ ≤ 2 ^ 1024 * 10 ^ (3 * (places / 3 + 1)) :=
        Nat.mul_le_mul_left _ (Nat.pow_le_pow_right (by decide) (by omega))
      _ ≤ 2 ^ 1024 * 2 ^ (10 * (places / 3 + 1)) := by
        rw [Nat.pow_mul, Nat.pow_mul]
        exact Nat.mul_le_mul_left _ (Nat.pow_le_pow_left (by decide) _)
      _ = 2 ^ (1024 + 10 * (places / 3 + 1)) := by rw [Nat.pow_add]
  exact (Nat.pow_le_pow_iff_right (by decide)).1 hpow

/-- Ninety-three bits take twenty-eight decimal digits at most. -/
theorem places_le_of_pow_le_mul {digits places : ℕ} (h : 10 ^ places ≤ digits * 2 ^ 1075) :
    places ≤ 28 * (digits.log2 / 93 + 1) + 325 := by
  have hlog : digits < 2 ^ (digits.log2 + 1) := Nat.lt_log2_self
  have hpow : 10 ^ places ≤ 10 ^ (28 * (digits.log2 / 93 + 1) + 325) :=
    calc 10 ^ places ≤ digits * 2 ^ 1075 := h
      _ ≤ 2 ^ (93 * (digits.log2 / 93 + 1)) * 10 ^ 325 :=
        Nat.mul_le_mul (hlog.le.trans (Nat.pow_le_pow_right (by decide) (by omega))) (by decide +kernel)
      _ ≤ 10 ^ (28 * (digits.log2 / 93 + 1)) * 10 ^ 325 := by
        rw [Nat.pow_mul, Nat.pow_mul]
        exact Nat.mul_le_mul_right _ (Nat.pow_le_pow_left (by norm_num) _)
      _ = 10 ^ (28 * (digits.log2 / 93 + 1) + 325) := by rw [Nat.pow_add]
  exact (Nat.pow_le_pow_iff_right (by decide)).1 hpow

/-- A decimal that rounds to a number is read as that number. -/
theorem toFloat_eq {x : Float} {negative : Bool} {m : ℕ} {e : ℤ} (hx : ofFloat x = .finite negative m e) (hpos : 0 < m)
    {digits places : ℕ} (hplaces : places ≤ 1000) (h : RoundsTo m e (digits / 10 ^ places)) :
    toFloat negative digits (-places) = x := by
  obtain ⟨hcanonical, hbits⟩ := Canonical.of_ofFloat hx
  have hlow := pow_le_of_roundsTo hcanonical h hpos
  have hhigh := le_pow_of_roundsTo hcanonical h
  have hdigits : digits ≠ 0 := by
    rintro rfl
    rw [Nat.zero_mul] at hlow
    exact absurd hlow (Nat.not_le.2 (Nat.pow_pos (by decide)))
  have hupper := log2_le_of_le_mul_pow hdigits hhigh
  have hlower := places_le_of_pow_le_mul hlow
  have hnearest : (Quotient.timesPower ⟨digits, 1⟩ 10 (-places)).nearestBits = magnitudeBits m e := by
    have hnum : 0 < (Quotient.timesPower ⟨digits, 1⟩ 10 (-places)).num :=
      Quotient.num_timesPower_pos (Nat.pos_of_ne_zero hdigits) (by decide) _
    apply Quotient.nearestBits_eq hnum (Quotient.den_timesPower_pos Nat.one_pos (by decide) _) hcanonical
    rw [Quotient.toRat_timesPower (by decide), zpow_neg, zpow_natCast]
    simpa [Quotient.toRat, div_eq_mul_inv] using h
  unfold toFloat
  simp only
  rw [if_neg (by omega), if_neg (by omega), Quotient.scale, hnearest, ← hbits, UInt64.ofNat_toNat,
    Float.ofBits_toBits]

end Decimal

end UwbRanging
