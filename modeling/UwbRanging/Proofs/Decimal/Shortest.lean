import UwbRanging.Decimal.Shortest
import UwbRanging.Proofs.Decimal.Nearest
import UwbRanging.Proofs.Decimal.Places

/-!
The shortest digits of a number round to that number, and their text is read as it.
-/

namespace UwbRanging.Decimal

open Binary64
open Telemetry (MagnitudeText SignText)

section Interval

variable {m : ℕ} {e : ℤ}

theorem den_ofBinary_pos (m : ℕ) (e : ℤ) : 0 < (Quotient.ofBinary m e).den :=
  Quotient.den_timesPower_pos Nat.one_pos (by decide) e

theorem toRat_ofBinary (m : ℕ) (e : ℤ) : (Quotient.ofBinary m e).toRat = m * 2 ^ e := by
  rw [Quotient.ofBinary, Quotient.toRat_timesPower (by decide), Quotient.toRat, Nat.cast_one, div_one, Nat.cast_ofNat]

theorem num_ofBinary (m : ℕ) (e : ℤ) :
    ((Quotient.ofBinary m e).num : ℚ) = m * 2 ^ e * (Quotient.ofBinary m e).den := by
  rw [← toRat_ofBinary, Quotient.toRat, div_mul_cancel₀]
  exact Nat.cast_ne_zero.2 (Nat.ne_of_gt (den_ofBinary_pos m e))

/-- How far the interval reaches below the mantissa, in its unit. -/
def lowerGap (m : ℕ) (e : ℤ) : ℚ :=
  if m = 2 ^ 52 ∧ -1074 < e then 1 / 4 else 1 / 2

theorem lowerGap_le (m : ℕ) (e : ℤ) : lowerGap m e ≤ 1 / 2 := by
  unfold lowerGap
  split <;> norm_num

/-- The lower end of the interval in quarters of the mantissa's unit. -/
theorem low_of (hpos : 0 < m) (e : ℤ) : ∃ quarters : ℕ,
    (RoundingInterval.of m e).low = quarters * (Quotient.ofBinary 1 (e - 2)).num ∧
      (quarters : ℚ) = 4 * (m - lowerGap m e) := by
  refine ⟨_, rfl, ?_⟩
  rw [leadingOne_eq, lowerGap, Nat.cast_sub (by split <;> omega)]
  split <;> push_cast <;> ring

theorem toRat_value_of (m : ℕ) (e : ℤ) :
    (Quotient.mk (RoundingInterval.of m e).value (RoundingInterval.of m e).den).toRat = m * 2 ^ e := by
  have hpos := den_ofBinary_pos 1 (e - 2)
  have hnum := num_ofBinary 1 (e - 2)
  rw [Nat.cast_one, one_mul, zpow_sub₀ two_ne_zero] at hnum
  rw [Quotient.toRat, div_eq_iff (Nat.cast_ne_zero.2 (Nat.ne_of_gt hpos))]
  simp only [RoundingInterval.of]
  push_cast
  rw [hnum]
  norm_num
  ring

variable {n : ℕ} {k : ℤ}

/-- A decimal is compared with a count of quarters by multiplying out. -/
theorem quarters_le_iff (c : ℕ) (point : Quotient)
    (hpoint : point = Quotient.scale ⟨n * (RoundingInterval.of m e).den, 1⟩ k) :
    (c * (Quotient.ofBinary 1 (e - 2)).num * point.den ≤ point.num ↔ (c : ℚ) ≤ 4 * (n * 10 ^ k * 2 ^ (-e))) ∧
      (point.num ≤ c * (Quotient.ofBinary 1 (e - 2)).num * point.den ↔ 4 * (n * 10 ^ k * 2 ^ (-e)) ≤ (c : ℚ)) := by
  have hden : 0 < point.den := hpoint ▸ Quotient.den_timesPower_pos Nat.one_pos (by decide) k
  have hunit : (0 : ℚ) < (Quotient.ofBinary 1 (e - 2)).num :=
    Nat.cast_pos.2 (Quotient.num_timesPower_pos Nat.one_pos (by decide) _)
  have hvalue : point.toRat = 4 * (n * 10 ^ k * 2 ^ (-e)) * (Quotient.ofBinary 1 (e - 2)).num := by
    rw [hpoint, Quotient.scale, Quotient.toRat_timesPower (by decide), Quotient.toRat, num_ofBinary,
      zpow_sub₀ two_ne_zero, zpow_neg]
    simp only [RoundingInterval.of]
    push_cast
    have htwo : (2 : ℚ) ^ e ≠ 0 := zpow_ne_zero e two_ne_zero
    field_simp
  rw [Quotient.mul_den_le_num_iff hden, Quotient.num_le_mul_den_iff hden, hvalue, Nat.cast_mul]
  exact ⟨mul_le_mul_iff_left₀ hunit, mul_le_mul_iff_left₀ hunit⟩

/-- What the interval holds, on the scale of the mantissa. -/
theorem holds_iff (hpos : 0 < m) {w : ℚ} (hw : n * 10 ^ k * 2 ^ (-e) = w) :
    (RoundingInterval.of m e).holds n k = true ↔
      if m % 2 = 0 then m - lowerGap m e ≤ w ∧ w ≤ m + 1 / 2 else m - lowerGap m e < w ∧ w < m + 1 / 2 := by
  obtain ⟨quarters, hlow, hquarters⟩ := low_of hpos e
  have hhigh : (RoundingInterval.of m e).high = (4 * m + 2) * (Quotient.ofBinary 1 (e - 2)).num := rfl
  have hclosed : (RoundingInterval.of m e).closed = decide (m % 2 = 0) := rfl
  simp only [RoundingInterval.holds, hlow, hhigh, hclosed]
  generalize hpoint : Quotient.scale ⟨n * (RoundingInterval.of m e).den, 1⟩ k = point
  obtain ⟨hlowLe, hlowGe⟩ := quarters_le_iff quarters point hpoint.symm
  obtain ⟨hhighLe, hhighGe⟩ := quarters_le_iff (4 * m + 2) point hpoint.symm
  rw [hw, hquarters] at hlowLe hlowGe
  rw [hw] at hhighLe hhighGe
  push_cast at hhighLe hhighGe
  by_cases heven : m % 2 = 0
  · rw [if_pos (decide_eq_true heven), if_pos heven, Bool.and_eq_true, decide_eq_true_eq, decide_eq_true_eq, hlowLe,
      hhighGe]
    constructor <;> rintro ⟨h₁, h₂⟩ <;> constructor <;> linarith
  · rw [if_neg (by simpa using heven), if_neg heven, Bool.and_eq_true, decide_eq_true_eq, decide_eq_true_eq,
      ← Nat.not_le, ← Nat.not_le, hlowGe, hhighLe, not_le, not_le]
    constructor <;> rintro ⟨h₁, h₂⟩ <;> constructor <;> linarith

/-- The decimals that the interval holds are those that round to the number. -/
theorem roundsTo_of_holds (hpos : 0 < m) (h : (RoundingInterval.of m e).holds n k = true) :
    RoundsTo m e (n * 10 ^ k) := by
  rw [holds_iff hpos rfl] at h
  have hgap := lowerGap_le m e
  have hleading (hm : m = 2 ^ 52) (he : -1074 < e) : lowerGap m e = 1 / 4 := if_pos ⟨hm, he⟩
  by_cases heven : m % 2 = 0
  · rw [if_pos heven] at h
    obtain ⟨hlow, hhigh⟩ := h
    refine ⟨⟨by linarith, hhigh, fun hodd => by omega⟩, fun hm he => ?_⟩
    rwa [hleading hm he] at hlow
  · rw [if_neg heven] at h
    obtain ⟨hlow, hhigh⟩ := h
    refine ⟨⟨by linarith, hhigh.le, fun _ => ⟨by linarith, hhigh⟩⟩, fun hm he => ?_⟩
    rw [hleading hm he] at hlow
    exact hlow.le

theorem near_lt_lowerGap (hnarrow : m < 2 ^ 53) (e : ℤ) : (m : ℚ) / (2 * 10 ^ 16) < lowerGap m e := by
  have hnarrow' : (m : ℚ) < 2 ^ 53 := by exact_mod_cast hnarrow
  unfold lowerGap
  split
  case isTrue hleading =>
    have hm : (m : ℚ) = 2 ^ 52 := by exact_mod_cast hleading.1
    rw [hm]
    norm_num
  case isFalse => linarith

/-- A decimal that is closer to a number than a part in ten to the sixteenth is in its interval. -/
theorem holds_of_near (hpos : 0 < m) (hnarrow : m < 2 ^ 53)
    (hnear : |(n : ℚ) * 10 ^ k * 2 ^ (-e) - m| ≤ m / (2 * 10 ^ 16)) : (RoundingInterval.of m e).holds n k = true := by
  rw [holds_iff hpos rfl]
  obtain ⟨hleft, hright⟩ := abs_le.1 hnear
  generalize (n : ℚ) * 10 ^ k * 2 ^ (-e) = w at hleft hright
  have hnear := near_lt_lowerGap hnarrow e
  have hgap := lowerGap_le m e
  have hlow : m - lowerGap m e < w := by linarith
  have hhigh : w < m + 1 / 2 := by linarith
  split
  · exact ⟨hlow.le, hhigh.le⟩
  · exact ⟨hlow, hhigh⟩

end Interval

section Grids

variable {r : RoundingInterval} {k : ℤ} {d : Digits}

theorem holds_of_onGrid? (h : r.onGrid? k = some d) : d.exponent = k ∧ r.holds d.digits d.exponent = true := by
  unfold RoundingInterval.onGrid? at h
  extract_lets q below nearest other at h
  split at h
  case isTrue hholds =>
    cases h
    exact ⟨rfl, hholds⟩
  case isFalse =>
    split at h
    case isTrue hholds =>
      cases h
      exact ⟨rfl, hholds⟩
    case isFalse => cases h

theorem isSome_onGrid? (h : r.holds (Quotient.scale ⟨r.value, r.den⟩ (-k)).roundHalfEven k = true) :
    (r.onGrid? k).isSome = true := by
  simp only [RoundingInterval.onGrid?]
  rw [if_pos h]
  rfl

variable {m : ℕ} {e : ℤ}

/-- On the grid of seventeen digits every number is told from its neighbours. -/
theorem isSome_onGrid?_seventeen (hpos : 0 < m) (hnarrow : m < 2 ^ 53) {lead : ℤ}
    (hlead : (10 : ℚ) ^ lead ≤ m * 2 ^ e) : ((RoundingInterval.of m e).onGrid? (lead - 16)).isSome = true := by
  apply isSome_onGrid?
  apply holds_of_near hpos hnarrow
  have hden : 0 <
      (Quotient.scale ⟨(RoundingInterval.of m e).value, (RoundingInterval.of m e).den⟩ (-(lead - 16))).den := by
    apply Quotient.den_timesPower_pos _ (show 0 < 10 by decide)
    exact den_ofBinary_pos 1 (e - 2)
  have hnearest := Quotient.abs_roundHalfEven_sub_le hden
  generalize (Quotient.scale ⟨(RoundingInterval.of m e).value, (RoundingInterval.of m e).den⟩
    (-(lead - 16))).roundHalfEven = n at hnearest ⊢
  rw [Quotient.scale, Quotient.toRat_timesPower (by decide), toRat_value_of, zpow_neg, Nat.cast_ofNat] at hnearest
  have hten : (0 : ℚ) < 10 ^ (lead - 16) := zpow_pos (by norm_num) _
  have htwo : (0 : ℚ) < 2 ^ e := zpow_pos (by norm_num) _
  have hgrid : (10 : ℚ) ^ (lead - 16) * 10 ^ 16 = 10 ^ lead := by
    rw [← zpow_natCast, ← zpow_add₀ (by norm_num)]
    congr 1
    omega
  have hscaled : (n : ℚ) * 10 ^ (lead - 16) * 2 ^ (-e) - m =
      (n - m * 2 ^ e * (10 ^ (lead - 16))⁻¹) * (10 ^ (lead - 16) * (2 ^ e)⁻¹) := by
    rw [zpow_neg]
    field_simp
  rw [hscaled, abs_mul, abs_of_pos (mul_pos hten (inv_pos.2 htwo))]
  calc |(n : ℚ) - m * 2 ^ e * (10 ^ (lead - 16))⁻¹| * (10 ^ (lead - 16) * (2 ^ e)⁻¹)
      ≤ 1 / 2 * (10 ^ (lead - 16) * (2 ^ e)⁻¹) :=
        mul_le_mul_of_nonneg_right hnearest (mul_pos hten (inv_pos.2 htwo)).le
    _ = 10 ^ lead * (2 ^ e)⁻¹ / (2 * 10 ^ 16) := by
        rw [← hgrid]
        field_simp
    _ ≤ m * 2 ^ e * (2 ^ e)⁻¹ / (2 * 10 ^ 16) := by gcongr
    _ = m / (2 * 10 ^ 16) := by rw [mul_assoc, mul_inv_cancel₀ htwo.ne', mul_one]

/-- The least number has its leading digit at the three hundred and twenty-fourth place. -/
theorem leadingExponent_lower (hpos : 0 < m) (he : -1074 ≤ e) {lead : ℤ} (hlead : (m : ℚ) * 2 ^ e < 10 ^ (lead + 1)) :
    -324 ≤ lead := by
  by_contra hlt
  have hone : (1 : ℚ) ≤ m := by exact_mod_cast hpos
  have hsmall : (10 : ℚ) ^ (-324 : ℤ) ≤ 2 ^ (-1074 : ℤ) := by
    have hnat : 2 ^ 1074 ≤ 10 ^ 324 := by decide +kernel
    rw [zpow_neg, zpow_neg]
    apply inv_anti₀ (zpow_pos (by norm_num) _)
    exact_mod_cast hnat
  have hchain : (10 : ℚ) ^ (lead + 1) ≤ m * 2 ^ e :=
    calc (10 : ℚ) ^ (lead + 1) ≤ 10 ^ (-324 : ℤ) := zpow_le_zpow_right₀ (by norm_num) (by omega)
      _ ≤ 2 ^ (-1074 : ℤ) := hsmall
      _ ≤ 2 ^ e := zpow_le_zpow_right₀ (by norm_num) he
      _ ≤ m * 2 ^ e := le_mul_of_one_le_left (zpow_pos (by norm_num) _).le hone
  exact absurd hlead (not_lt.2 hchain)

/-- The digits that are chosen round to the number. -/
theorem roundsTo_shortestDigits (hpos : 0 < m) (hcanonical : Canonical m e) :
    RoundsTo m e ((shortestDigits m e).digits * 10 ^ (shortestDigits m e).exponent) ∧
      -340 ≤ (shortestDigits m e).exponent := by
  obtain ⟨hleadLow, hleadHigh⟩ := Quotient.leadingExponent_spec
    (q := ⟨(RoundingInterval.of m e).value, (RoundingInterval.of m e).den⟩)
    (Nat.mul_pos (by omega) (Quotient.num_timesPower_pos Nat.one_pos (by decide) _)) (den_ofBinary_pos 1 (e - 2))
  rw [toRat_value_of] at hleadLow hleadHigh
  simp only [shortestDigits]
  generalize (Quotient.mk (RoundingInterval.of m e).value (RoundingInterval.of m e).den).leadingExponent = lead
    at hleadLow hleadHigh ⊢
  have hlower := leadingExponent_lower hpos hcanonical.least hleadHigh
  have hlast : lead - 16 ∈ (List.range 18).map fun (n : ℕ) => lead + 1 - (n : ℤ) := by
    refine List.mem_map.2 ⟨17, by decide, ?_⟩
    push_cast
    ring
  have hsome := List.findSome?_isSome_iff.2 ⟨_, hlast, isSome_onGrid?_seventeen hpos hcanonical.narrow hleadLow⟩
  obtain ⟨d, hd⟩ := Option.isSome_iff_exists.1 hsome
  rw [hd]
  obtain ⟨k, hk, hgrid⟩ := List.exists_of_findSome?_eq_some hd
  obtain ⟨hexponent, hholds⟩ := holds_of_onGrid? hgrid
  refine ⟨roundsTo_of_holds hpos hholds, ?_⟩
  obtain ⟨i, hi, rfl⟩ := List.mem_map.1 hk
  have := List.mem_range.1 hi
  simp only [Option.getD_some]
  omega

end Grids

section Text

theorem positional_text (d : Digits) : ∃ whole fraction, MagnitudeText whole fraction (positional d).toList ∧
    (digitsValue (digitsValue 0 whole) fraction : ℚ) / 10 ^ fraction.length = d.digits * 10 ^ d.exponent ∧
      (fraction.length : ℤ) ≤ max 1 (-d.exponent) := by
  obtain ⟨digits, exponent⟩ := d
  cases exponent with
  | ofNat e =>
      refine ⟨Nat.toDigits 10 (digits * 10 ^ e), ['0'], ?_, ?_, le_max_left _ _⟩
      · have htext : (positional ⟨digits, .ofNat e⟩).toList = Nat.toDigits 10 (digits * 10 ^ e) ++ ['.', '0'] := by
          simp only [positional, String.toList_append, Nat.toString_eq_ofList_toDigits, String.toList_ofList]
          rfl
        rw [htext]
        exact .point Nat.toDigits_ne_nil (digitText_toDigits _) (by decide)
      · have hzero (n : ℕ) : digitsValue n ['0'] = 10 * n := rfl
        rw [digitsValue_toDigits, hzero]
        push_cast
        rw [Int.ofNat_eq_natCast, zpow_natCast, List.length_singleton, pow_one]
        ring
  | negSucc e =>
      obtain ⟨whole, fraction, htext, hlength, hvalue⟩ := withPlaces_text (Nat.succ_pos e) digits
      refine ⟨whole, fraction, htext, ?_, ?_⟩
      · rw [hvalue, hlength, zpow_negSucc, div_eq_mul_inv]
      · rw [hlength]
        exact le_max_right _ _

/-- The shortest text of a finite number has digits before and after its point, and is read as that number. -/
theorem shortest_text {x : Float} {negative : Bool} {m : ℕ} {e : ℤ} (hx : ofFloat x = .finite negative m e) :
    ∃ sign whole fraction magnitude, SignText negative sign ∧ MagnitudeText whole fraction magnitude ∧
      (shortest x).toList = sign ++ magnitude ∧ Written.toFloat ⟨negative, whole, fraction, false, []⟩ = x := by
  obtain ⟨hcanonical, hbits⟩ := Canonical.of_ofFloat hx
  have hshortest : shortest x = signed negative (if m = 0 then "0.0" else positional (shortestDigits m e)) := by
    rw [shortest, hx]
  obtain ⟨sign, hsign, htext⟩ := signed_text negative (if m = 0 then "0.0" else positional (shortestDigits m e))
  rw [← hshortest] at htext
  have hwritten (whole fraction : List Char) : Written.toFloat ⟨negative, whole, fraction, false, []⟩ =
      toFloat negative (digitsValue (digitsValue 0 whole) fraction) (-fraction.length) := by
    simp only [Written.toFloat, Bool.false_eq_true, if_false]
    rw [show ((digitsValue 0 [] : ℕ) : ℤ) - fraction.length = -fraction.length from zero_sub _]
  by_cases hm : m = 0
  · rw [if_pos hm] at htext
    refine ⟨sign, ['0'], ['0'], _, hsign, .point (by decide) (by decide) (by decide), htext, ?_⟩
    have hleast : e = -1074 := by
      have := hcanonical.least
      have := hcanonical.leading
      omega
    have hzero : digitsValue (digitsValue 0 ['0']) ['0'] = 0 := rfl
    rw [hm, hleast] at hbits
    rw [hwritten, hzero, toFloat]
    simp only [true_or, if_true]
    have hsum : signBit negative + 0 = x.toBits.toNat := hbits.symm
    rw [hsum, UInt64.ofNat_toNat, Float.ofBits_toBits]
  · rw [if_neg hm] at htext
    have hpos := Nat.pos_of_ne_zero hm
    obtain ⟨hrounds, hexponent⟩ := roundsTo_shortestDigits hpos hcanonical
    obtain ⟨whole, fraction, hmagnitude, hvalue, hplaces⟩ := positional_text (shortestDigits m e)
    refine ⟨sign, whole, fraction, _, hsign, hmagnitude, htext, ?_⟩
    rw [hwritten]
    exact toFloat_eq hx hpos (by omega) (hvalue ▸ hrounds)

end Text

end UwbRanging.Decimal
