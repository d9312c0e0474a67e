import UwbRanging.Proofs.Decimal.Quotient
import UwbRanging.Proofs.Float.Rounding

/-!
Rounding to nearest. The bits behind a mantissa say on which side of the middle between two mantissas the exact number
lies, and shifting the mantissa keeps that up to date. So what is rounded once is the nearest number of its format, of
two the even one: the error is half a unit in the last place, and what has a place in the format is not changed.
-/

namespace UwbRanging.Rounding

open Float.Model (Format totalExponent UnpackedFloat)
open Float.Model.UnpackedFloat
open UwbRanging.Quotient (HalfEven)

section Brackets

/-- What is known of a number of which only the whole part is kept. -/
def Describes (x : ℚ) (m : ℕ) : Accuracy → Prop
  | .exact => x = m
  | .inexact .lt => m < x ∧ x < m + 1 / 2
  | .inexact .eq => x = m + 1 / 2
  | .inexact .gt => m + 1 / 2 < x ∧ x < m + 1

variable {x : ℚ}

theorem accuracy_ofMantissaAndAccuracy (m : ℕ) (accuracy : Accuracy) :
    (ExtendedMantissa.ofMantissaAndAccuracy m accuracy).accuracy = accuracy := by
  unfold ExtendedMantissa.ofMantissaAndAccuracy
  split <;> rfl

theorem Describes.shiftRightOne {em : ExtendedMantissa} (h : Describes x em.mantissa em.accuracy) :
    Describes (x / 2) em.shiftRightOne.mantissa em.shiftRightOne.accuracy := by
  obtain ⟨m, roundBit, stickyBit⟩ := em
  have hm : (m : ℚ) = 2 * ((m / 2 : ℕ) : ℚ) + (m % 2 : ℕ) := by exact_mod_cast (Nat.div_add_mod m 2).symm
  rcases Nat.mod_two_eq_zero_or_one m with heven | hodd
  · rw [heven, Nat.cast_zero, add_zero] at hm
    have hbit : (m % 2 != 0) = false := by rw [heven]; rfl
    cases roundBit <;> cases stickyBit <;>
      simp only [Describes, ExtendedMantissa.accuracy, ExtendedMantissa.shiftRightOne, hbit, hm, Bool.or_false,
        Bool.or_true] at h ⊢ <;>
      (try constructor) <;> linarith
  · rw [hodd, Nat.cast_one] at hm
    have hbit : (m % 2 != 0) = true := by rw [hodd]; rfl
    cases roundBit <;> cases stickyBit <;>
      simp only [Describes, ExtendedMantissa.accuracy, ExtendedMantissa.shiftRightOne, hbit, hm, Bool.or_false,
        Bool.or_true] at h ⊢ <;>
      (try constructor) <;> linarith

theorem Describes.shiftRight {em : ExtendedMantissa} (h : Describes x em.mantissa em.accuracy) (s : ℕ) :
    Describes (x / 2 ^ s) (em >>> s).mantissa (em >>> s).accuracy := by
  change Describes _ (s.repeat ExtendedMantissa.shiftRightOne em).mantissa
    (s.repeat ExtendedMantissa.shiftRightOne em).accuracy
  induction s with
  | zero => rwa [pow_zero, div_one]
  | succ s ih =>
      rw [pow_succ, ← div_div]
      exact ih.shiftRightOne

theorem Describes.halfEven {em : ExtendedMantissa} (h : Describes x em.mantissa em.accuracy) :
    HalfEven x em.roundedMantissa := by
  obtain ⟨m, roundBit, stickyBit⟩ := em
  cases roundBit <;> cases stickyBit <;>
    simp only [Describes, ExtendedMantissa.accuracy, ExtendedMantissa.roundedMantissa,
      Accuracy.roundToNearestEven] at h ⊢
  · exact ⟨by linarith, by linarith, fun _ => ⟨by linarith, by linarith⟩⟩
  · exact ⟨by linarith, by linarith, fun _ => ⟨by linarith, by linarith⟩⟩
  · -- in the middle an odd mantissa goes up
    rcases Nat.mod_two_eq_zero_or_one m with heven | hodd
    · rw [heven, Nat.add_zero]
      exact ⟨by linarith, by linarith, fun hodd => by omega⟩
    · rw [hodd]
      have hnext : ((m + 1 : ℕ) : ℚ) = m + 1 := Nat.cast_succ m
      exact ⟨by linarith, by linarith, fun heven => by omega⟩
  · have hnext : ((m + 1 : ℕ) : ℚ) = m + 1 := Nat.cast_succ m
    exact ⟨by linarith, by linarith, fun _ => ⟨by linarith, by linarith⟩⟩

theorem halfEven_roundedMantissa {m : ℕ} {accuracy : Accuracy} (h : Describes x m accuracy) (e : ℤ) :
    HalfEven (x / 2 ^ spareBits m e) (roundedMantissa m e accuracy) := by
  have hstart : Describes x (ExtendedMantissa.ofMantissaAndAccuracy m accuracy).mantissa
      (ExtendedMantissa.ofMantissaAndAccuracy m accuracy).accuracy := by
    rwa [mantissa_ofMantissaAndAccuracy, accuracy_ofMantissaAndAccuracy]
  exact (hstart.shiftRight _).halfEven

/-- The remainder of a division tells on which side of the middle the quotient lies. -/
theorem describes_quotient (m : ℕ) {n : ℕ} (hn : 0 < n) :
    Describes ((m : ℚ) / n) (m / n) (accuracyOfFraction (m % n) n) := by
  have hpos : (0 : ℚ) < n := Nat.cast_pos.2 hn
  have hm : (m : ℚ) / n = (m / n : ℕ) + (m % n : ℕ) / n := by
    have hsplit : (m : ℚ) = n * (m / n : ℕ) + (m % n : ℕ) := by exact_mod_cast (Nat.div_add_mod m n).symm
    field_simp
    linarith
  have hless : ((m % n : ℕ) : ℚ) / n < 1 := by
    rw [div_lt_one hpos]
    exact_mod_cast Nat.mod_lt m hn
  unfold accuracyOfFraction
  split
  case isTrue hzero => rw [Describes, hm, hzero, Nat.cast_zero, zero_div, add_zero]
  case isFalse hne =>
    have hrest : (0 : ℚ) < ((m % n : ℕ) : ℚ) / n := div_pos (Nat.cast_pos.2 (Nat.pos_of_ne_zero hne)) hpos
    rw [hm]
    rcases hcompare : compare (2 * (m % n)) n with _ | _ | _
    · have hhalf : ((m % n : ℕ) : ℚ) / n < 1 / 2 := by
        rw [div_lt_div_iff₀ hpos two_pos]
        have hlt := compare_lt_iff_lt.1 hcompare
        exact_mod_cast (by omega : m % n * 2 < 1 * n)
      constructor <;> linarith
    · have hhalf : ((m % n : ℕ) : ℚ) / n = 1 / 2 := by
        rw [div_eq_div_iff hpos.ne' two_ne_zero]
        have heq := compare_eq_iff_eq.1 hcompare
        exact_mod_cast (by omega : m % n * 2 = 1 * n)
      rw [Describes, hhalf]
    · have hhalf : 1 / 2 < ((m % n : ℕ) : ℚ) / n := by
        rw [div_lt_div_iff₀ two_pos hpos]
        have hgt := compare_gt_iff_gt.1 hcompare
        exact_mod_cast (by omega : 1 * n < m % n * 2)
      constructor <;> linarith

end Brackets

section Values

/-- A number with a sign. -/
def signed : Sign → ℚ → ℚ
  | .negative, w => -w
  | .positive, w => w

@[simp] theorem abs_signed (sign : Sign) (w : ℚ) : |signed sign w| = |w| := by
  cases sign with
  | negative => exact abs_neg w
  | positive => rfl

theorem cast_apply (sign : Sign) (z : ℤ) : (sign.apply z : ℚ) = signed sign z := by
  cases sign with
  | negative => exact Int.cast_neg z
  | positive => rfl

/-- The number that a zero or a finite number of the format stands for. -/
def Stands : UnpackedFloat → ℚ → Prop
  | .zero _, v => v = 0
  | .finite sign m e _, v => v = signed sign (m * 2 ^ e)
  | _, _ => False

theorem Stands.zero_or_finite {u : UnpackedFloat} {v : ℚ} (h : Stands u v) :
    (∃ sign, u = .zero sign ∧ v = 0) ∨
      ∃ sign m e, ∃ hm : 0 < m, u = .finite sign m e hm ∧ v = signed sign (m * 2 ^ e) := by
  cases u with
  | infinity => exact absurd h id
  | notANumber => exact absurd h id
  | zero sign => exact .inl ⟨sign, rfl, h⟩
  | finite sign m e hm => exact .inr ⟨sign, m, e, hm, rfl, h⟩

/-- The exponent is the one that leaves room for all bits, and not more than is needed. -/
def Canonical : UnpackedFloat → Prop
  | .zero _ => True
  | .finite _ m e _ => Format.binary64.targetExponent (totalExponent m e) = e
  | _ => False

theorem targetExponent_eq (m : ℕ) (e : ℤ) :
    Format.binary64.targetExponent (totalExponent m e) = max (m.log2 + 1 + e - 53) (-1074) :=
  rfl

/-- `v` is `w` rounded to 53 bits, or to fewer where these are too small. -/
structure RoundsTo (w v : ℚ) : Prop where
  error : ∀ k : ℤ, -1021 ≤ k → |w| < 2 ^ k → |v - w| ≤ 2 ^ (k - 54)
  exact : ∀ k z : ℤ, -1021 ≤ k → |w| < 2 ^ k → w = z * 2 ^ (k - 53) → v = w

theorem RoundsTo.refl (w : ℚ) : RoundsTo w w where
  error k _ _ := by
    rw [sub_self, abs_zero]
    positivity
  exact _ _ _ _ _ := rfl

variable {w v : ℚ}

theorem RoundsTo.neg (h : RoundsTo w v) : RoundsTo (-w) (-v) where
  error k hk hw := by
    rw [abs_neg] at hw
    rw [neg_sub_neg, abs_sub_comm]
    exact h.error k hk hw
  exact k z hk hw hz := by
    rw [abs_neg] at hw
    refine congrArg Neg.neg (h.exact k (-z) hk hw ?_)
    push_cast
    linarith

theorem RoundsTo.signed (h : RoundsTo w v) (sign : Sign) : RoundsTo (signed sign w) (signed sign v) := by
  cases sign with
  | negative => exact h.neg
  | positive => exact h

/-- A count and the units that it counts: what is as close as possible to `w`, with units that are not too large. -/
theorem roundsTo_of_halfEven {t : ℤ} {n : ℕ} (ht : t = -1074 ∨ 2 ^ (t + 52) ≤ w)
    (hlow : -1074 ≤ t) (h : HalfEven (w / 2 ^ t) n) : RoundsTo w (n * 2 ^ t) := by
  have hunit : (0 : ℚ) < 2 ^ t := zpow_pos two_pos t
  have hbound (k : ℤ) (hk : -1021 ≤ k) (hw : |w| < 2 ^ k) : t ≤ k - 53 := by
    rcases ht with rfl | ht
    · omega
    · have hpow := (ht.trans (le_abs_self w)).trans_lt hw
      have := (zpow_lt_zpow_iff_right₀ (one_lt_two : (1 : ℚ) < 2)).1 hpow
      omega
  refine ⟨fun k hk hw => ?_, fun k z hk hw hz => ?_⟩
  · have hclose : |(n : ℚ) - w / 2 ^ t| ≤ 1 / 2 := by
      have hlow := h.low
      have hhigh := h.high
      rw [abs_le]
      constructor <;> linarith
    calc |n * 2 ^ t - w| = |(n : ℚ) - w / 2 ^ t| * 2 ^ t := by
          rw [← abs_of_pos hunit, ← abs_mul, abs_of_pos hunit, sub_mul, div_mul_cancel₀ _ hunit.ne']
      _ ≤ 1 / 2 * 2 ^ t := mul_le_mul_of_nonneg_right hclose hunit.le
      _ = 2 ^ (t - 1) := by rw [zpow_sub₀ two_ne_zero, zpow_one]; ring
      _ ≤ 2 ^ (k - 54) := zpow_le_zpow_right₀ one_le_two (by have := hbound k hk hw; omega)
  · -- `w` is a whole number of units, and that is the count nearest to itself
    have hwhole : w / 2 ^ t = (z * 2 ^ (k - 53 - t).toNat : ℤ) := by
      have hle := hbound k hk hw
      rw [hz, mul_div_assoc, ← zpow_sub₀ two_ne_zero]
      push_cast
      rw [← zpow_natCast, Int.toNat_of_nonneg (by omega)]
    generalize z * 2 ^ (k - 53 - t).toNat = y at hwhole
    have hcount : (n : ℤ) = y := by
      have hlow := h.low
      have hhigh := h.high
      rw [hwhole] at hlow hhigh
      have hless : (n : ℚ) < y + 1 := by linarith
      have hgreater : (y : ℚ) < n + 1 := by linarith
      have hless' : (n : ℤ) < y + 1 := by exact_mod_cast hless
      have hgreater' : y < (n : ℤ) + 1 := by exact_mod_cast hgreater
      omega
    rw [← Int.cast_natCast, hcount, ← hwhole, div_mul_cancel₀ _ hunit.ne']

end Values

section Rounded

/-- A mantissa that was rounded up to one more bit has a zero to spare. -/
theorem withoutSpareBits_spec {r : ℕ} {t : ℤ} (hr : r ≤ 2 ^ 53) (ht : -1074 ≤ t)
    (hfull : 52 ≤ r.log2 ∨ t = -1074) (sign : Sign) :
    Stands (withoutSpareBits sign r t) (signed sign (r * 2 ^ t)) ∧ Canonical (withoutSpareBits sign r t) := by
  have hlog : r.log2 ≤ 53 := by
    have hle := log2_le_log2 hr
    rwa [Nat.log2_two_pow] at hle
  have hspare : spareBits r t = r.log2 - 52 := by
    rw [spareBits_eq, totalExponent]
    omega
  have hbits := log2_div_two_pow r (spareBits r t)
  have hwhole : r / 2 ^ spareBits r t * 2 ^ spareBits r t = r := by
    by_cases hmore : r.log2 = 53
    · have hge : 2 ^ 53 ≤ r := by
        have hne : r ≠ 0 := by
          rintro rfl
          cases hmore
        exact (Nat.le_log2 hne).1 hmore.ge
      obtain rfl : r = 2 ^ 53 := Nat.le_antisymm hr hge
      rw [hspare, hmore]
      rfl
    · rw [hspare, Nat.sub_eq_zero_of_le (by omega), pow_zero, Nat.div_one, Nat.mul_one]
  unfold withoutSpareBits
  split
  case isTrue hzero =>
    rw [hzero, Nat.zero_mul] at hwhole
    rw [← hwhole]
    refine ⟨?_, trivial⟩
    cases sign <;> simp [Stands, signed]
  case isFalse hne =>
    constructor
    · rw [Stands, zpow_add₀ two_ne_zero, mul_comm ((2 : ℚ) ^ t), ← mul_assoc, zpow_natCast]
      congr 2
      exact_mod_cast hwhole.symm
    · rw [Canonical, targetExponent_eq, hbits, hspare]
      omega

/-- What is rounded is the nearest number of the format, and is one of its numbers. -/
theorem roundWithAccuracy_spec {w : ℚ} {m : ℕ} {e : ℤ} {accuracy : Accuracy}
    (hle : e ≤ Format.binary64.targetExponent (totalExponent m e)) (hw : Describes (w / 2 ^ e) m accuracy)
    (sign : Sign) : ∃ v, Stands (roundWithAccuracy Format.binary64 sign m e accuracy) (signed sign v) ∧
      Canonical (roundWithAccuracy Format.binary64 sign m e accuracy) ∧ RoundsTo w v := by
  obtain ⟨hlow, hhigh⟩ := roundedMantissa_mem m e accuracy
  have hnearest := halfEven_roundedMantissa hw e
  have hspare := spareBits_eq m e
  have hlog := log2_div_two_pow m (spareBits m e)
  rw [roundWithAccuracy_eq]
  rw [targetExponent_eq] at hle
  rw [totalExponent] at hspare
  generalize roundedMantissa m e accuracy = r at hlow hhigh hnearest ⊢
  generalize hs : spareBits m e = s at hlow hhigh hnearest hspare hlog ⊢
  have ht : e + s = max (m.log2 + 1 + e - 53) (-1074) := by omega
  have hshort : m / 2 ^ s < 2 ^ 53 := by
    by_contra hge
    rw [not_lt] at hge
    have hbits := log2_le_log2 hge
    rw [Nat.log2_two_pow] at hbits
    omega
  have hr : r ≤ 2 ^ 53 := by omega
  have hrLog := log2_le_log2 hlow
  obtain ⟨hstands, hcanonical⟩ := withoutSpareBits_spec hr (t := e + s) (by omega) (by omega) sign
  refine ⟨_, hstands, hcanonical, roundsTo_of_halfEven ?_ (by omega) ?_⟩
  · by_cases hleast : e + s = -1074
    · exact .inl hleast
    · right
      have hfull : m.log2 + 1 + e - 53 = e + s := by omega
      have hm : m ≠ 0 := by
        rintro rfl
        rw [Nat.log2_zero] at hfull
        omega
      have hmantissa : (2 : ℚ) ^ (m.log2 : ℤ) ≤ m := by exact_mod_cast Nat.log2_self_le hm
      have hwhole : (m : ℚ) ≤ w / 2 ^ e := by
        rcases accuracy with _ | _ | _ | _
        · exact hw.ge
        · exact hw.1.le
        · exact (le_add_of_nonneg_right (by norm_num)).trans hw.ge
        · exact (le_add_of_nonneg_right (by norm_num)).trans hw.1.le
      calc (2 : ℚ) ^ (e + s + 52) = 2 ^ (m.log2 : ℤ) * 2 ^ e := by
            rw [← zpow_add₀ two_ne_zero]
            congr 1
            omega
        _ ≤ w / 2 ^ e * 2 ^ e := mul_le_mul_of_nonneg_right (hmantissa.trans hwhole) (by positivity)
        _ = w := div_mul_cancel₀ _ (by positivity)
  · rw [zpow_add₀ two_ne_zero, zpow_natCast, ← div_div]
    exact hnearest

end Rounded

end UwbRanging.Rounding
