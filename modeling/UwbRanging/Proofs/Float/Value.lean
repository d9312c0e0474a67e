import UwbRanging.Proofs.Float.Bounds
import UwbRanging.Proofs.Float.Nearest

/-!
The rational number that a binary64 number stands for, and what the four operations do to it: each result is the exact
one, rounded to nearest. Whole numbers of up to 53 bits are added, subtracted and multiplied without any error.
-/

namespace UwbRanging

open Float.Model (Format totalExponent UnpackedFloat)
open Float.Model.UnpackedFloat

namespace Rounding

section Operations

/-- What comes out for the exact result `w`: one of the numbers of the format, the nearest one. -/
def Computes (u : UnpackedFloat) (w : ℚ) : Prop :=
  ∃ v, Stands u v ∧ Canonical u ∧ RoundsTo w v

variable {x y : UnpackedFloat} {u v : ℚ}

theorem Stands.computes (h : Stands x v) (hx : Canonical x) : Computes x v :=
  ⟨v, h, hx, .refl v⟩

theorem computes_zero (sign : Sign) : Computes (.zero sign) 0 :=
  ⟨0, rfl, trivial, .refl 0⟩

theorem computes_roundWithAccuracy {w : ℚ} {m : ℕ} {e : ℤ} {accuracy : Accuracy}
    (hle : e ≤ Format.binary64.targetExponent (totalExponent m e)) (hw : Describes (w / 2 ^ e) m accuracy)
    (sign : Sign) : Computes (roundWithAccuracy Format.binary64 sign m e accuracy) (signed sign w) := by
  obtain ⟨v, hstands, hcanonical, hround⟩ := roundWithAccuracy_spec hle hw sign
  exact ⟨_, hstands, hcanonical, hround.signed sign⟩

theorem computes_round {m : ℕ} (hm : m ≠ 0) (e : ℤ) (sign : Sign) :
    Computes (UnpackedFloat.round Format.binary64 sign m e) (signed sign (m * 2 ^ e)) := by
  simp only [UnpackedFloat.round, decreaseExponent_eq]
  generalize hs : (e - Format.binary64.targetExponent (totalExponent m e)).toNat = s
  have hsame := totalExponent_mul_two_pow hm s e
  refine computes_roundWithAccuracy ?_ ?_ sign
  · rw [hsame]
    omega
  · rw [Describes, mul_div_assoc, ← zpow_sub₀ two_ne_zero, sub_sub_cancel, zpow_natCast]
    push_cast
    rfl

theorem computes_normalize (z e : ℤ) (sign : Sign) :
    Computes (UnpackedFloat.normalize Format.binary64 z e sign) (z * 2 ^ e) := by
  unfold UnpackedFloat.normalize
  split
  case h_1 hlt =>
    have hneg : z < 0 := compare_lt_iff_lt.1 hlt
    have hcast : ((-z).toNat : ℚ) = -z := by exact_mod_cast Int.toNat_of_nonneg (by omega : 0 ≤ -z)
    have hround := computes_round (m := (-z).toNat) (by omega) e .negative
    rwa [hcast, signed, neg_mul, neg_neg] at hround
  case h_2 heq =>
    rw [compare_eq_iff_eq.1 heq, Int.cast_zero, zero_mul]
    exact computes_zero sign
  case h_3 hgt =>
    have hpos : 0 < z := compare_gt_iff_gt.1 hgt
    have hcast : (z.toNat : ℚ) = z := by exact_mod_cast Int.toNat_of_nonneg hpos.le
    have hround := computes_round (m := z.toNat) (by omega) e .positive
    rwa [hcast, signed] at hround

/-- A number does not change where its exponent is lowered. -/
theorem apply_decreased (sign : Sign) (m : ℕ) {e target : ℤ} (h : target ≤ e) :
    ((sign.apply (m * 2 ^ (e - target).toNat : ℕ) : ℤ) : ℚ) * 2 ^ target = signed sign (m * 2 ^ e) := by
  have hpow : (2 : ℚ) ^ (e - target).toNat * 2 ^ target = 2 ^ e := by
    rw [← zpow_natCast, ← zpow_add₀ two_ne_zero]
    congr 1
    omega
  rw [cast_apply]
  push_cast
  cases sign with
  | negative => rw [signed, signed, neg_mul, mul_assoc, hpow]
  | positive => rw [signed, signed, mul_assoc, hpow]

theorem stands_neg {sign : Sign} {m : ℕ} {e : ℤ} {hm : 0 < m} (h : Stands (.finite sign m e hm) v) :
    Stands (.finite (-sign) m e hm) (-v) := by
  rw [Stands] at h ⊢
  rw [h]
  cases sign with
  | negative => exact neg_neg _
  | positive => rfl

theorem computes_add_sub (hx : Stands x u) (hy : Stands y v) (hcx : Canonical x) (hcy : Canonical y) :
    Computes (UnpackedFloat.add Format.binary64 x y) (u + v) ∧
      Computes (UnpackedFloat.sub Format.binary64 x y) (u - v) := by
  obtain ⟨sign₁, rfl, rfl⟩ | ⟨sign₁, m₁, e₁, hm₁, rfl, hu⟩ := hx.zero_or_finite
  · rw [zero_add, zero_sub]
    obtain ⟨sign₂, rfl, rfl⟩ | ⟨sign₂, m₂, e₂, hm₂, rfl, -⟩ := hy.zero_or_finite
    · rw [neg_zero, UnpackedFloat.add, UnpackedFloat.sub]
      constructor <;> split <;> exact computes_zero _
    · exact ⟨hy.computes hcy, (stands_neg hy).computes hcy⟩
  · obtain ⟨sign₂, rfl, rfl⟩ | ⟨sign₂, m₂, e₂, hm₂, rfl, hv⟩ := hy.zero_or_finite
    · rw [add_zero, sub_zero]
      exact ⟨hx.computes hcx, hx.computes hcx⟩
    · simp only [UnpackedFloat.add, UnpackedFloat.sub, decreaseExponent_eq]
      have hfirst := apply_decreased sign₁ m₁ (min_le_left e₁ e₂)
      have hsecond := apply_decreased sign₂ m₂ (min_le_right e₁ e₂)
      rw [hu, hv, ← hfirst, ← hsecond]
      constructor
      · rw [← add_mul, ← Int.cast_add]
        exact computes_normalize _ _ _
      · rw [← sub_mul, ← Int.cast_sub]
        exact computes_normalize _ _ _

theorem signed_mul (sign₁ sign₂ : Sign) (u v : ℚ) :
    signed (sign₁ * sign₂) (u * v) = signed sign₁ u * signed sign₂ v := by
  cases sign₁ <;> cases sign₂
  · exact (neg_mul_neg u v).symm
  · exact (neg_mul u v).symm
  · exact (mul_neg u v).symm
  · rfl

theorem signed_div (sign₁ sign₂ : Sign) (u v : ℚ) :
    signed (sign₁ / sign₂) (u / v) = signed sign₁ u / signed sign₂ v := by
  cases sign₁ <;> cases sign₂
  · exact (neg_div_neg_eq u v).symm
  · exact (neg_div v u).symm
  · exact (div_neg u).symm
  · rfl

theorem computes_mul (hx : Stands x u) (hy : Stands y v) (hcx : Canonical x) (hcy : Canonical y) :
    Computes (UnpackedFloat.mul Format.binary64 x y) (u * v) := by
  obtain ⟨sign₁, rfl, rfl⟩ | ⟨sign₁, m₁, e₁, hm₁, rfl, rfl⟩ := hx.zero_or_finite
  · rw [zero_mul]
    obtain ⟨sign₂, rfl, -⟩ | ⟨sign₂, m₂, e₂, hm₂, rfl, -⟩ := hy.zero_or_finite <;> exact computes_zero _
  · obtain ⟨sign₂, rfl, rfl⟩ | ⟨sign₂, m₂, e₂, hm₂, rfl, rfl⟩ := hy.zero_or_finite
    · rw [mul_zero]
      exact computes_zero _
    · have hlog := (log2_mul_le m₁ m₂ hm₁.ne' hm₂.ne').1
      rw [Canonical, targetExponent_eq] at hcx hcy
      rw [← signed_mul]
      refine computes_roundWithAccuracy ?_ ?_ _
      · rw [targetExponent_eq]
        omega
      · rw [Describes, zpow_add₀ two_ne_zero]
        push_cast
        field_simp

/-- The quotient of the mantissas is taken so long that it has all its bits. -/
theorem exponent_quotient_le {m₁ m₂ : ℕ} (hm₁ : 0 < m₁) (hm₂ : 0 < m₂) {e : ℤ} {s : ℕ}
    (h : e ≤ max (m₁.log2 + s + e - m₂.log2 - 53) (-1074)) :
    e ≤ Format.binary64.targetExponent (totalExponent (m₁ * 2 ^ s / m₂) e) := by
  have hlog := log2_mul_two_pow hm₁.ne' s
  rw [targetExponent_eq]
  by_cases hzero : m₁ * 2 ^ s / m₂ = 0
  · have hless : m₁ * 2 ^ s < m₂ := (Nat.div_eq_zero_iff_lt hm₂).1 hzero
    have hbits := log2_le_log2 hless.le
    omega
  · have hnext : m₁ * 2 ^ s ≤ (m₁ * 2 ^ s / m₂ + 1) * m₂ := by
      rw [Nat.add_mul, Nat.one_mul]
      have := Nat.div_add_mod' (m₁ * 2 ^ s) m₂
      have := Nat.mod_lt (m₁ * 2 ^ s) hm₂
      omega
    have hbits : (m₁ * 2 ^ s).log2 < (m₁ * 2 ^ s / m₂).log2 + 1 + (m₂.log2 + 1) := by
      rw [Nat.log2_lt (by positivity), Nat.pow_add]
      exact hnext.trans_lt (Nat.mul_lt_mul_of_le_of_lt (Nat.lt_log2_self) Nat.lt_log2_self (by positivity))
    omega

theorem computes_div (hx : Stands x u) (hy : Stands y v) (hv : v ≠ 0) :
    Computes (UnpackedFloat.div Format.binary64 x y) (u / v) := by
  obtain ⟨-, -, hzero⟩ | ⟨sign₂, m₂, e₂, hm₂, rfl, rfl⟩ := hy.zero_or_finite
  · exact absurd hzero hv
  obtain ⟨sign₁, rfl, rfl⟩ | ⟨sign₁, m₁, e₁, hm₁, rfl, rfl⟩ := hx.zero_or_finite
  · rw [zero_div]
    exact computes_zero _
  have hpos : (0 : ℚ) < m₂ := Nat.cast_pos.2 hm₂
  rw [← signed_div]
  simp only [UnpackedFloat.div, divCore, Nat.shiftLeft_eq]
  have htarget : Format.binary64.targetExponent (totalExponent m₁ e₁ - totalExponent m₂ e₂) =
      max (m₁.log2 + 1 + e₁ - (m₂.log2 + 1 + e₂) - 53) (-1074) := rfl
  rw [htarget]
  generalize he : min (e₁ - e₂) (max (m₁.log2 + 1 + e₁ - (m₂.log2 + 1 + e₂) - 53) (-1074) : ℤ) = e
  generalize hs : (e₁ - e₂ - e).toNat = s
  refine computes_roundWithAccuracy (exponent_quotient_le hm₁ hm₂ (by omega)) ?_ _
  have hexact : (m₁ * 2 ^ e₁ / (m₂ * 2 ^ e₂) / 2 ^ e : ℚ) = ((m₁ * 2 ^ s : ℕ) : ℚ) / m₂ := by
    have hshift : (2 : ℚ) ^ e₁ = 2 ^ s * 2 ^ e * 2 ^ e₂ := by
      rw [← zpow_natCast, ← zpow_add₀ two_ne_zero, ← zpow_add₀ two_ne_zero]
      congr 1
      omega
    rw [hshift]
    push_cast
    field_simp
  rw [hexact]
  exact describes_quotient _ hm₂

end Operations

section Packing

variable {u : UnpackedFloat} {v : ℚ}

theorem unpack_packComponents_zero (sign : Sign) {m : ℕ} (h : 0 < m) (hm : m < 2 ^ 52) :
    unpack Format.binary64 (packComponents Format.binary64 sign 0#11 (BitVec.ofNat 52 m)) =
      .finite sign m (-1074) h := by
  have hones : ¬ (0#11 = -1#11) := by decide
  have hmantissa : (BitVec.ofNat 52 m).toNat = m := Nat.mod_eq_of_lt hm
  have hne : ¬ BitVec.ofNat 52 m = 0#52 := by
    intro hzero
    rw [hzero] at hmantissa
    exact h.ne hmantissa
  unfold unpack
  simp only [unpackExponent_packComponents, unpackMantissa_packComponents, unpackSign_packComponents,
    Sign.ofBitVec_toBitVec, hones, if_false, if_true, hne, dif_neg, not_false_iff, UnpackedFloat.finite.injEq, true_and]
  exact ⟨hmantissa, rfl⟩

/-- A number of the format that is not too large is packed and unpacked without loss. -/
theorem unpack_pack_of_canonical (hu : Canonical u) (hv : Stands u v) (hsmall : |v| < 2 ^ (1024 : ℤ)) :
    unpack Format.binary64 (pack Format.binary64 u) = u := by
  obtain ⟨sign, rfl, -⟩ | ⟨sign, m, e, hm, rfl, rfl⟩ := hv.zero_or_finite
  · rw [pack, unpack_packedZero]
  rw [Canonical, targetExponent_eq] at hu
  have hhigh : (m.log2 : ℤ) + e < 1024 := by
    rw [← zpow_lt_zpow_iff_right₀ (one_lt_two : (1 : ℚ) < 2), zpow_add₀ two_ne_zero]
    refine lt_of_le_of_lt ?_ hsmall
    rw [abs_signed, abs_of_nonneg (by positivity)]
    refine mul_le_mul_of_nonneg_right ?_ (by positivity)
    exact_mod_cast Nat.log2_self_le hm.ne'
  by_cases hfull : m.log2 = 52
  · exact unpack_pack_full hfull (by omega) (by omega) sign hm
  · obtain rfl : e = -1074 := by omega
    have hshort : m < 2 ^ 52 := (Nat.log2_lt hm.ne').1 (by omega)
    have hpack : pack Format.binary64 (.finite sign m (-1074) hm) =
        packComponents Format.binary64 sign 0#11 (BitVec.ofNat 52 m) := by
      unfold pack
      extract_lets actual biased
      have hbiased : biased = 1 := biased_eq (-1074)
      have hlarge : ¬ 2 ^ 11 ≤ biased + 1 := by omega
      have hbits : ¬ actual + 1 = 53 := by omega
      rw [if_neg hlarge]
      exact if_neg hbits
    rw [hpack]
    exact unpack_packComponents_zero sign hm hshort

theorem log2_leadingOne_append (mantissa : BitVec 52) : (1#1 ++ mantissa).toNat.log2 = 52 := by
  have hsum : (1#1 ++ mantissa).toNat = 2 ^ 52 + mantissa.toNat := by
    rw [BitVec.toNat_append, ← Nat.shiftLeft_add_eq_or_of_lt mantissa.isLt]
    rfl
  have hlt : mantissa.toNat < 2 ^ 52 := mantissa.isLt
  rw [hsum, Nat.log2_eq_iff (by omega)]
  omega

theorem canonical_unpack {b : BitVec 64} :
    Stands (unpack Format.binary64 b) v → Canonical (unpack Format.binary64 b) := by
  unfold unpack
  extract_lets mantissa field exponent
  intro hv
  split
  case isTrue hones =>
    rw [if_pos hones] at hv
    split at hv <;> exact absurd hv id
  case isFalse hones =>
    split
    case isTrue hleast =>
      split
      case isTrue => trivial
      case isFalse hne =>
        have hlt : mantissa.toNat < 2 ^ 52 := mantissa.isLt
        have hlog : mantissa.toNat.log2 < 52 := (Nat.log2_lt (by simpa [BitVec.toNat_eq] using hne)).2 hlt
        have hexponent : exponent = 0 - 1075 := by
          have hzero : field.toNat = 0 := congrArg BitVec.toNat hleast
          change (field.toNat : ℤ) - 1075 = 0 - 1075
          rw [hzero]
          rfl
        rw [Canonical, targetExponent_eq, hexponent]
        omega
    case isFalse hne =>
      have hpos : 0 < field.toNat := Nat.pos_of_ne_zero fun hzero => hne (BitVec.eq_of_toNat_eq hzero)
      have hexponent : exponent = field.toNat - 1075 := rfl
      rw [Canonical, targetExponent_eq, log2_leadingOne_append, hexponent]
      omega

/-- What has been unpacked is packed and unpacked without loss, and so it is with the other sign. -/
theorem unpack_pack_unpack {b : BitVec 64} {sign : Sign} {m : ℕ} {e : ℤ} {h : 0 < m}
    (hunpack : unpack Format.binary64 b = .finite sign m e h) (sign' : Sign) :
    unpack Format.binary64 (pack Format.binary64 (.finite sign' m e h)) = .finite sign' m e h := by
  have hstands : Stands (.finite sign' m e h) (signed sign' (m * 2 ^ e)) := rfl
  have hcanonical : Canonical (.finite sign' m e h) := by
    have hsame : Stands (unpack Format.binary64 b) (signed sign (m * 2 ^ e)) := by rw [hunpack]; rfl
    have hunpacked := canonical_unpack hsame
    rw [hunpack] at hunpacked
    exact hunpacked
  have hbits : (m : ℚ) < 2 ^ 53 := by
    exact_mod_cast (Nat.log2_lt h.ne').1 (Nat.lt_succ_of_le (log2_le_of_unpack hunpack))
  refine unpack_pack_of_canonical hcanonical hstands ?_
  rw [abs_signed, abs_of_nonneg (by positivity)]
  calc (m * 2 ^ e : ℚ) < 2 ^ 53 * 2 ^ e := mul_lt_mul_of_pos_right hbits (by positivity)
    _ ≤ 2 ^ (53 : ℤ) * 2 ^ (971 : ℤ) :=
        mul_le_mul_of_nonneg_left (zpow_le_zpow_right₀ one_le_two (exponent_le_of_unpack hunpack)) (by positivity)
    _ = 2 ^ (1024 : ℤ) := (zpow_add₀ two_ne_zero _ _).symm

end Packing

end Rounding

open Rounding

/-- The number that a finite binary64 number stands for. -/
def Represents (x : Float) (v : ℚ) : Prop :=
  Stands x.toModel.unpack v

namespace Represents

variable {x y : Float} {u v : ℚ}

/-- What is packed without overflow represents the rounded result. -/
theorem of_computes {w : ℚ} {p : UnpackedFloat}
    (hunpack : x.toModel.unpack = unpack Format.binary64 (pack Format.binary64 p)) (h : Computes p w)
    (hsmall : |w| < 2 ^ (1023 : ℤ)) : ∃ v, Represents x v ∧ RoundsTo w v := by
  obtain ⟨v, hstands, hcanonical, hround⟩ := h
  have herror : |v - w| ≤ 2 ^ (1023 - 54 : ℤ) := hround.error 1023 (by decide) hsmall
  have hless : (2 : ℚ) ^ (1023 - 54 : ℤ) ≤ 2 ^ (1023 : ℤ) := zpow_le_zpow_right₀ one_le_two (by decide)
  have hfits : |v| < 2 ^ (1024 : ℤ) := by
    calc |v| = |w + (v - w)| := by rw [add_sub_cancel]
      _ ≤ |w| + |v - w| := abs_add_le _ _
      _ < 2 ^ (1023 : ℤ) + 2 ^ (1023 : ℤ) := add_lt_add_of_lt_of_le hsmall (herror.trans hless)
      _ = 2 ^ (1023 + 1 : ℤ) := by rw [zpow_add_one₀ two_ne_zero, mul_two]
  refine ⟨v, ?_, hround⟩
  rw [Represents, hunpack, unpack_pack_of_canonical hcanonical hstands hfits]
  exact hstands

section Results

variable (hx : Represents x u) (hy : Represents y v)
include hx hy

theorem add (hsmall : |u + v| < 2 ^ (1023 : ℤ)) : ∃ w, Represents (x + y) w ∧ RoundsTo (u + v) w :=
  of_computes rfl (computes_add_sub hx hy (canonical_unpack hx) (canonical_unpack hy)).1 hsmall

theorem sub (hsmall : |u - v| < 2 ^ (1023 : ℤ)) : ∃ w, Represents (x - y) w ∧ RoundsTo (u - v) w :=
  of_computes rfl (computes_add_sub hx hy (canonical_unpack hx) (canonical_unpack hy)).2 hsmall

theorem mul (hsmall : |u * v| < 2 ^ (1023 : ℤ)) : ∃ w, Represents (x * y) w ∧ RoundsTo (u * v) w :=
  of_computes rfl (computes_mul hx hy (canonical_unpack hx) (canonical_unpack hy)) hsmall

theorem div (hv : v ≠ 0) (hsmall : |u / v| < 2 ^ (1023 : ℤ)) : ∃ w, Represents (x / y) w ∧ RoundsTo (u / v) w :=
  of_computes rfl (computes_div hx hy hv) hsmall

end Results

/-- Below a power of two the error is below that power by 54 places. -/
theorem exists_close {w : ℚ} (h : |w| < 2 ^ (1023 : ℤ) → ∃ v, Represents x v ∧ RoundsTo w v) {k : ℤ} (hlow : -1021 ≤ k)
    (hhigh : k ≤ 1023) (hw : |w| < 2 ^ k) : ∃ v, Represents x v ∧ |v - w| ≤ 2 ^ (k - 54) := by
  obtain ⟨v, hv, hround⟩ := h (hw.trans_le (zpow_le_zpow_right₀ one_le_two hhigh))
  exact ⟨v, hv, hround.error k hlow hw⟩

section Whole

/-- What stands for a whole number of at most 53 bits was not rounded. -/
theorem of_roundsTo_whole {z : ℤ} (hz : |z| < 2 ^ 53) (h : |(z : ℚ)| < 2 ^ (1023 : ℤ) →
    ∃ w, Represents x w ∧ RoundsTo z w) : Represents x z := by
  have hbits : |(z : ℚ)| < 2 ^ (53 : ℤ) := by exact_mod_cast hz
  obtain ⟨w, hw, hround⟩ := h (hbits.trans_le (zpow_le_zpow_right₀ one_le_two (by decide)))
  rwa [hround.exact 53 z (by decide) hbits (by rw [sub_self, zpow_zero, mul_one])] at hw

theorem ofNat {n : ℕ} (hn : n < 2 ^ 53) : Represents (Float.ofNat n) n := by
  have hfast : Float.ofNat n = n.toUInt64.toFloat * Float.ofBits 0x3FF0000000000000 := dif_pos ⟨hn, by decide⟩
  have hcast : ((n : ℤ) : ℚ) = n := Int.cast_natCast n
  have hsmall : |(n : ℤ)| < 2 ^ 53 := by
    rw [Nat.abs_cast]
    exact_mod_cast hn
  have hconverted : Represents n.toUInt64.toFloat (n : ℤ) := by
    have hword : n.toUInt64.toNat = n := Nat.mod_eq_of_lt (by omega)
    have hcomputes : Computes (UnpackedFloat.normalize Format.binary64 (n.toUInt64.toNat : ℤ) 0 .positive) (n : ℤ) := by
      have hexact := computes_normalize n 0 .positive
      rw [zpow_zero, mul_one] at hexact
      rwa [hword]
    exact of_roundsTo_whole hsmall (of_computes rfl hcomputes)
  -- the literal one is multiplied with
  have hone : Represents (Float.ofBits 0x3FF0000000000000) 1 := by
    have hunpack : (Float.ofBits 0x3FF0000000000000).toModel.unpack = .finite .positive (2 ^ 52) (-52) (by decide) := by
      rfl
    rw [Represents, hunpack, Stands, signed]
    norm_num
  rw [hfast, ← hcast]
  refine of_roundsTo_whole hsmall fun h => ?_
  have hproduct := hconverted.mul hone
  rw [mul_one] at hproduct
  exact hproduct h

variable {a b : ℤ} (hx : Represents x a) (hy : Represents y b)
include hx hy

theorem add_whole (h : |a + b| < 2 ^ 53) : Represents (x + y) (a + b : ℤ) :=
  of_roundsTo_whole h fun hsmall => by
    rw [Int.cast_add] at hsmall ⊢
    exact hx.add hy hsmall

theorem sub_whole (h : |a - b| < 2 ^ 53) : Represents (x - y) (a - b : ℤ) :=
  of_roundsTo_whole h fun hsmall => by
    rw [Int.cast_sub] at hsmall ⊢
    exact hx.sub hy hsmall

theorem mul_whole (h : |a * b| < 2 ^ 53) : Represents (x * y) (a * b : ℤ) :=
  of_roundsTo_whole h fun hsmall => by
    rw [Int.cast_mul] at hsmall ⊢
    exact hx.mul hy hsmall

end Whole

/-- Only what stands for zero is a zero. -/
theorem eq_zero (h : Represents x v) (hv : v ≠ 0) : Arith.eq x Arith.zero = false := by
  change UnpackedFloat.beq x.toModel.unpack (Float.ofNat 0).toModel.unpack = false
  rw [unpack_zero]
  obtain ⟨-, -, hzero⟩ | ⟨sign, m, e, hm, hunpack, -⟩ := Stands.zero_or_finite h
  · exact absurd hzero hv
  · rw [hunpack]
    cases sign <;> rfl

end Represents

end UwbRanging
