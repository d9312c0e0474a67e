import Mathlib

/-!
How far rounding moves a binary64 number. The leading digit of the result is at the place of the leading digit of the
exact number or one place higher, and a number that has all its bits is packed and unpacked without loss.
-/

namespace UwbRanging.Rounding

open Float.Model (Format totalExponent UnpackedFloat)
open Float.Model.UnpackedFloat

/-- A zero, or a finite number whose leading digit is at a given place or below it. -/
def Within (k : ℤ) : UnpackedFloat → Prop
  | .zero _ => True
  | .finite _ m e _ => totalExponent m e ≤ k
  | _ => False

instance (k : ℤ) (x : UnpackedFloat) : Decidable (Within k x) :=
  match x with
  | .zero _ => isTrue trivial
  | .finite _ m e _ => inferInstanceAs (Decidable (totalExponent m e ≤ k))
  | .infinity _ | .notANumber => isFalse id

section Shifts

theorem log2_div_two_pow (m s : ℕ) : (m / 2 ^ s).log2 = m.log2 - s := by
  rw [Nat.log2_eq_log_two, Nat.log2_eq_log_two, Nat.log_div_base_pow]

theorem log2_mul_two_pow {m : ℕ} (hm : m ≠ 0) (s : ℕ) : (m * 2 ^ s).log2 = m.log2 + s := by
  rw [Nat.log2_eq_iff (Nat.mul_ne_zero hm (Nat.two_pow_pos s).ne'), Nat.add_right_comm, Nat.pow_add, Nat.pow_add]
  exact ⟨Nat.mul_le_mul_right _ (Nat.log2_self_le hm), Nat.mul_lt_mul_of_pos_right Nat.lt_log2_self (Nat.two_pow_pos s)⟩

theorem log2_le_log2 {m n : ℕ} (h : m ≤ n) : m.log2 ≤ n.log2 := by
  rw [Nat.log2_eq_log_two, Nat.log2_eq_log_two]
  exact Nat.log_mono_right h

theorem log2_le_add_one {m n : ℕ} (hm : m ≠ 0) (h : n ≤ m + 1) : n.log2 ≤ m.log2 + 1 := by
  rw [← log2_mul_two_pow hm 1]
  exact log2_le_log2 (by omega)

theorem totalExponent_div_two_pow {m s : ℕ} (h : m / 2 ^ s ≠ 0) (e : ℤ) :
    totalExponent (m / 2 ^ s) (e + s) = totalExponent m e := by
  have hle : 2 ^ s ≤ m := by
    by_contra hlt
    exact h (Nat.div_eq_of_lt (not_le.1 hlt))
  have hm : m ≠ 0 := (Nat.lt_of_lt_of_le (Nat.two_pow_pos s) hle).ne'
  have hlog : s ≤ m.log2 := (Nat.le_log2 hm).2 hle
  rw [totalExponent, totalExponent, log2_div_two_pow]
  omega

theorem totalExponent_mul_two_pow {m : ℕ} (hm : m ≠ 0) (s : ℕ) (e : ℤ) :
    totalExponent (m * 2 ^ s) (e - s) = totalExponent m e := by
  rw [totalExponent, totalExponent, log2_mul_two_pow hm]
  omega

theorem mantissa_shiftRight (em : ExtendedMantissa) (s : ℕ) : (em >>> s).mantissa = em.mantissa / 2 ^ s := by
  change (s.repeat ExtendedMantissa.shiftRightOne em).mantissa = _
  induction s with
  | zero => exact (Nat.div_one _).symm
  | succ s ih =>
      change (s.repeat ExtendedMantissa.shiftRightOne em).mantissa / 2 = _
      rw [ih, Nat.div_div_eq_div_mul, ← Nat.pow_succ]

theorem mantissa_ofMantissaAndAccuracy (m : ℕ) (accuracy : Accuracy) :
    (ExtendedMantissa.ofMantissaAndAccuracy m accuracy).mantissa = m := by
  unfold ExtendedMantissa.ofMantissaAndAccuracy
  split <;> rfl

theorem extendedMantissa_roundedMantissa_mem (em : ExtendedMantissa) :
    em.mantissa ≤ em.roundedMantissa ∧ em.roundedMantissa ≤ em.mantissa + 1 := by
  obtain ⟨m, roundBit, stickyBit⟩ := em
  have hmod : m % 2 ≤ 1 := Nat.le_of_lt_succ (Nat.mod_lt m (by decide))
  cases roundBit <;> cases stickyBit <;>
    simp [ExtendedMantissa.roundedMantissa, ExtendedMantissa.accuracy, Accuracy.roundToNearestEven, hmod]

end Shifts

section Rounded

variable {m : ℕ} {e : ℤ}

/-- By how many bits a mantissa is too long, or too low. -/
def spareBits (m : ℕ) (e : ℤ) : ℕ :=
  (Format.binary64.targetExponent (totalExponent m e) - e).toNat

/-- The mantissa without its spare bits, rounded. It has one bit more if it was rounded up to a power of two. -/
def roundedMantissa (m : ℕ) (e : ℤ) (accuracy : Accuracy) : ℕ :=
  (ExtendedMantissa.ofMantissaAndAccuracy m accuracy >>> spareBits m e).roundedMantissa

theorem roundedMantissa_mem (m : ℕ) (e : ℤ) (accuracy : Accuracy) :
    m / 2 ^ spareBits m e ≤ roundedMantissa m e accuracy ∧
      roundedMantissa m e accuracy ≤ m / 2 ^ spareBits m e + 1 := by
  have hmantissa := mantissa_shiftRight (ExtendedMantissa.ofMantissaAndAccuracy m accuracy) (spareBits m e)
  rw [mantissa_ofMantissaAndAccuracy] at hmantissa
  rw [← hmantissa]
  exact extendedMantissa_roundedMantissa_mem _

/-- The number with a mantissa less its spare bits. -/
def withoutSpareBits (sign : Sign) (m : ℕ) (e : ℤ) : UnpackedFloat :=
  if h : m / 2 ^ spareBits m e = 0 then .zero sign
  else .finite sign (m / 2 ^ spareBits m e) (e + spareBits m e) (Nat.pos_of_ne_zero h)

/-- Rounding drops the spare bits, goes up by one unit or not, and drops the bit that this may make spare. -/
theorem roundWithAccuracy_eq (sign : Sign) (m : ℕ) (e : ℤ) (accuracy : Accuracy) :
    roundWithAccuracy Format.binary64 sign m e accuracy =
      withoutSpareBits sign (roundedMantissa m e accuracy) (e + spareBits m e) := by
  have hfinal := mantissa_shiftRight (ExtendedMantissa.ofMantissaAndAccuracy (roundedMantissa m e accuracy) .exact)
    (spareBits (roundedMantissa m e accuracy) (e + spareBits m e))
  rw [mantissa_ofMantissaAndAccuracy] at hfinal
  unfold withoutSpareBits
  simp only [← hfinal]
  rfl

theorem spareBits_eq (m : ℕ) (e : ℤ) : spareBits m e = (max (totalExponent m e - 53) (-1074) - e).toNat :=
  rfl

theorem totalExponent_of_log2_eq_zero {m : ℕ} (h : m.log2 = 0) (e : ℤ) : totalExponent m e = e + 1 := by
  rw [totalExponent, h]
  omega

/-- A number all of whose bits are spare is rounded to the least number or to zero. -/
theorem totalExponent_le_of_no_bits {k : ℤ} (hk : -1074 ≤ k) (h : totalExponent m e ≤ k) {r : ℕ}
    (hzero : m / 2 ^ spareBits m e = 0) (hr : r ≤ 1) : totalExponent r (e + spareBits m e) ≤ k + 1 := by
  have hlog : r.log2 = 0 := by
    have hle := log2_le_log2 hr
    have hone : Nat.log2 1 = 0 := by decide
    omega
  have hspare := spareBits_eq m e
  rw [totalExponent_of_log2_eq_zero hlog]
  by_cases hm : m = 0
  · subst hm
    rw [totalExponent_of_log2_eq_zero Nat.log2_zero] at h hspare
    omega
  · have hbits : m.log2 < spareBits m e :=
      (Nat.log2_lt hm).2 ((Nat.div_eq_zero_iff_lt (Nat.two_pow_pos _)).1 hzero)
    simp only [totalExponent] at h hspare
    omega

theorem totalExponent_le_of_bits {k : ℤ} (h : totalExponent m e ≤ k) {r : ℕ} (hbits : m / 2 ^ spareBits m e ≠ 0)
    (hr : r ≤ m / 2 ^ spareBits m e + 1) : totalExponent r (e + spareBits m e) ≤ k + 1 := by
  have hsame := totalExponent_div_two_pow hbits e
  have hlog := log2_le_add_one hbits hr
  simp only [totalExponent] at hsame h ⊢
  omega

/-- Rounding raises the leading digit by one place at most. -/
theorem within_roundWithAccuracy {k : ℤ} (hk : -1074 ≤ k) (h : totalExponent m e ≤ k) (sign : Sign)
    (accuracy : Accuracy) : Within (k + 1) (roundWithAccuracy Format.binary64 sign m e accuracy) := by
  obtain ⟨-, hhigh⟩ := roundedMantissa_mem m e accuracy
  rw [roundWithAccuracy_eq]
  generalize roundedMantissa m e accuracy = r at hhigh ⊢
  have hexponent : totalExponent r (e + spareBits m e) ≤ k + 1 := by
    by_cases hzero : m / 2 ^ spareBits m e = 0
    · rw [hzero, Nat.zero_add] at hhigh
      exact totalExponent_le_of_no_bits hk h hzero hhigh
    · exact totalExponent_le_of_bits h hzero hhigh
  unfold withoutSpareBits
  split
  case isTrue => trivial
  case isFalse hne =>
    change totalExponent _ _ ≤ k + 1
    rw [totalExponent_div_two_pow hne]
    exact hexponent

theorem div_two_pow_ne_zero {m s : ℕ} (h : s + 1 ≤ m.log2) : m / 2 ^ s ≠ 0 := by
  intro hzero
  have hlog := log2_div_two_pow m s
  rw [hzero, Nat.log2_zero] at hlog
  omega

/-- A number with all its bits stays above the least one, keeps its bits, and may be raised by one place. -/
theorem roundWithAccuracy_full (hbits : 52 ≤ m.log2) (hlow : -1021 ≤ totalExponent m e) (sign : Sign)
    (accuracy : Accuracy) : ∃ m' e' h, roundWithAccuracy Format.binary64 sign m e accuracy = .finite sign m' e' h ∧
      m'.log2 = 52 ∧ totalExponent m e ≤ totalExponent m' e' ∧ totalExponent m' e' ≤ totalExponent m e + 1 := by
  obtain ⟨hr, hr'⟩ := roundedMantissa_mem m e accuracy
  have hround := roundWithAccuracy_eq sign m e accuracy
  generalize roundedMantissa m e accuracy = r at hr hr' hround
  have hspare := spareBits_eq m e
  have hlog := log2_div_two_pow m (spareBits m e)
  have hspare' : (spareBits m e : ℤ) = m.log2 - 52 := by
    simp only [totalExponent] at hspare hlow
    omega
  have hq : m / 2 ^ spareBits m e ≠ 0 := div_two_pow_ne_zero (by omega)
  -- the rounded mantissa has the bits of the one before or one more, which is dropped again
  have hrLow := log2_le_log2 hr
  have hrHigh := log2_le_add_one hq hr'
  have hspareR := spareBits_eq r (e + spareBits m e)
  have hspareR' : spareBits r (e + spareBits m e) = r.log2 - 52 := by
    simp only [totalExponent] at hspareR hlow
    omega
  have hfinal := log2_div_two_pow r (spareBits r (e + spareBits m e))
  have hne : r / 2 ^ spareBits r (e + spareBits m e) ≠ 0 := div_two_pow_ne_zero (by omega)
  rw [withoutSpareBits, dif_neg hne] at hround
  refine ⟨_, _, _, hround, by omega, ?_, ?_⟩ <;>
  · rw [totalExponent_div_two_pow hne]
    simp only [totalExponent]
    omega

end Rounded

section Packing

variable {x : UnpackedFloat} {k : ℤ}

theorem biased_eq (e : ℤ) : (e + Format.binary64.exponentBias + Format.binary64.mantissaBitsWithoutImplicit).toNat =
    (e + 1075).toNat :=
  congrArg Int.toNat (add_assoc e 1023 52)

theorem pack_full {m : ℕ} {e : ℤ} (hm : m.log2 = 52) (hhigh : e ≤ 971) (sign : Sign) (h : 0 < m) :
    pack Format.binary64 (.finite sign m e h) =
      packComponents Format.binary64 sign (BitVec.ofNat 11 (e + 1075).toNat) (BitVec.ofNat 52 m) := by
  unfold pack
  extract_lets actual biased
  have hbiased : biased = (e + 1075).toNat := biased_eq e
  have hlarge : ¬ 2 ^ 11 ≤ biased + 1 := by omega
  rw [if_neg hlarge, if_pos (by change m.log2 + 1 = 53; rw [hm]), hbiased]

theorem toNat_leadingOne_append {m : ℕ} (hm : m.log2 = 52) (h : 0 < m) : (1#1 ++ BitVec.ofNat 52 m).toNat = m := by
  obtain ⟨hmLow, hmHigh⟩ := (Nat.log2_eq_iff h.ne').1 hm
  rw [BitVec.toNat_append, BitVec.toNat_ofNat, BitVec.toNat_ofNat, Nat.shiftLeft_eq,
    ← Nat.shiftLeft_eq, ← Nat.shiftLeft_add_eq_or_of_lt (Nat.mod_lt _ (by decide)), Nat.shiftLeft_eq]
  omega

theorem unpack_pack_full {m : ℕ} {e : ℤ} (hm : m.log2 = 52) (hlow : -1074 ≤ e) (hhigh : e ≤ 971) (sign : Sign)
    (h : 0 < m) : unpack Format.binary64 (pack Format.binary64 (.finite sign m e h)) = .finite sign m e h := by
  have hexponent : (BitVec.ofNat 11 (e + 1075).toNat).toNat = (e + 1075).toNat := Nat.mod_eq_of_lt (by omega)
  rw [pack_full hm hhigh]
  unfold unpack
  simp only [unpackExponent_packComponents, unpackMantissa_packComponents, unpackSign_packComponents,
    Sign.ofBitVec_toBitVec]
  rw [if_neg, if_neg]
  · simp only [UnpackedFloat.finite.injEq, true_and]
    refine ⟨toNat_leadingOne_append hm h, ?_⟩
    rw [hexponent]
    change ((e + 1075).toNat : ℤ) - 1075 = e
    omega
  · intro hzero
    have hnat := congrArg BitVec.toNat hzero
    rw [hexponent] at hnat
    change (e + 1075).toNat = 0 at hnat
    omega
  · intro hones
    have hnat := congrArg BitVec.toNat hones
    rw [hexponent] at hnat
    change (e + 1075).toNat = 2047 at hnat
    omega

/-- No number has more bits than its format. -/
theorem log2_le_of_unpack {b : BitVec 64} {sign : Sign} {m : ℕ} {e : ℤ} {h : 0 < m}
    (hunpack : unpack Format.binary64 b = .finite sign m e h) : m.log2 ≤ 52 := by
  have hlt : m < 2 ^ 53 := by
    unfold unpack at hunpack
    extract_lets mantissa exponent at hunpack
    split at hunpack
    · split at hunpack <;> cases hunpack
    · split at hunpack
      · split at hunpack
        · cases hunpack
        · obtain ⟨-, rfl, -⟩ := UnpackedFloat.finite.inj hunpack
          exact Nat.lt_trans (BitVec.isLt _) (by decide)
      · obtain ⟨-, rfl, -⟩ := UnpackedFloat.finite.inj hunpack
        exact BitVec.isLt _
  exact Nat.le_of_lt_succ ((Nat.log2_lt h.ne').2 hlt)

/-- Nor is its exponent greater than the greatest of its format. -/
theorem exponent_le_of_unpack {b : BitVec 64} {sign : Sign} {m : ℕ} {e : ℤ} {h : 0 < m}
    (hunpack : unpack Format.binary64 b = .finite sign m e h) : e ≤ 971 := by
  unfold unpack at hunpack
  extract_lets mantissa field exponent at hunpack
  have hexponent : exponent = field.toNat - 1075 := rfl
  split at hunpack
  · split at hunpack <;> cases hunpack
  case isFalse hones =>
    have hfield : field.toNat ≤ 2046 := by
      have hlt : field.toNat < 2048 := field.isLt
      have hne : field.toNat ≠ 2047 := fun heq => hones (BitVec.eq_of_toNat_eq heq)
      omega
    split at hunpack
    case isTrue hleast =>
      have hzero : field.toNat = 0 := congrArg BitVec.toNat hleast
      split at hunpack
      · cases hunpack
      · obtain ⟨-, -, he⟩ := UnpackedFloat.finite.inj hunpack
        omega
    case isFalse =>
      obtain ⟨-, -, he⟩ := UnpackedFloat.finite.inj hunpack
      omega

/-- With the least exponent field a number has fewer bits, and is a small one. -/
theorem within_unpack_least (hlow : -1022 ≤ k) (sign : Sign) (v : BitVec 52) :
    Within k (unpack Format.binary64 (packComponents Format.binary64 sign 0#11 v)) := by
  have hones : ¬ (0#11 = -1#11) := by decide
  unfold unpack
  simp only [unpackExponent_packComponents, unpackMantissa_packComponents, unpackSign_packComponents, hones,
    if_false, if_true]
  split
  case isTrue => trivial
  case isFalse hv =>
    have hlog : v.toNat.log2 < 52 := (Nat.log2_lt (by simpa [BitVec.toNat_eq] using hv)).2 v.isLt
    change (v.toNat.log2 : ℤ) + 1 + (0 - 1075 + 1) ≤ k
    omega

/-- Packing and unpacking raises no number. -/
theorem within_unpack_pack (hlow : -1022 ≤ k) (hhigh : k ≤ 972) (h : Within k x) :
    Within k (unpack Format.binary64 (pack Format.binary64 x)) := by
  cases x with
  | infinity sign => exact absurd h id
  | notANumber => exact absurd h id
  | zero sign =>
      rw [pack, unpack_packedZero]
      trivial
  | finite sign m e hpos =>
      have hT : (m.log2 : ℤ) + 1 + e ≤ k := h
      by_cases hfull : m.log2 = 52 ∧ -1074 ≤ e
      · rw [unpack_pack_full hfull.1 hfull.2 (by omega)]
        exact h
      · unfold pack
        extract_lets actual biased
        have hbiased : biased = (e + 1075).toNat := biased_eq e
        have hlarge : ¬ 2 ^ 11 ≤ biased + 1 := by omega
        rw [if_neg hlarge]
        split
        case isTrue hbits =>
          have hm : m.log2 + 1 = 53 := hbits
          have hzero : biased = 0 := by omega
          rw [hzero]
          exact within_unpack_least hlow sign _
        case isFalse => exact within_unpack_least hlow sign _

end Packing

end UwbRanging.Rounding
