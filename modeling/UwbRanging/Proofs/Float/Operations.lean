import UwbRanging.Proofs.Float.Rounding

/-!
Where the leading digit of a sum, a difference, a product or a quotient is, one bit for the exact result and one for its
rounding.
-/

namespace UwbRanging.Rounding

open Float.Model (Format totalExponent UnpackedFloat)
open Float.Model.UnpackedFloat

section Operations

variable {k l : ℤ} {x y : UnpackedFloat}

theorem Within.mono (h : Within k x) (hkl : k ≤ l) : Within l x := by
  cases x with
  | zero => trivial
  | finite sign m e hpos => exact le_trans h hkl
  | _ => exact h

theorem decreaseExponent_eq (m : ℕ) (e target : ℤ) :
    decreaseExponent m e target = (m * 2 ^ (e - target).toNat, e - (e - target).toNat) := by
  rw [decreaseExponent, Nat.shiftLeft_eq]

theorem within_round {m : ℕ} {e : ℤ} (hk : -1074 ≤ k) (hm : m ≠ 0) (h : totalExponent m e ≤ k) (sign : Sign) :
    Within (k + 1) (UnpackedFloat.round Format.binary64 sign m e) := by
  simp only [UnpackedFloat.round, decreaseExponent_eq]
  apply within_roundWithAccuracy hk
  rw [totalExponent_mul_two_pow hm]
  exact h

theorem within_normalize {z e : ℤ} (hk : -1074 ≤ k) (h : z ≠ 0 → totalExponent z.natAbs e ≤ k) (sign : Sign) :
    Within (k + 1) (UnpackedFloat.normalize Format.binary64 z e sign) := by
  unfold UnpackedFloat.normalize
  split
  case h_1 hlt =>
    have hneg : z < 0 := compare_lt_iff_lt.1 hlt
    have habs : (-z).toNat = z.natAbs := by omega
    rw [habs]
    exact within_round hk (Int.natAbs_ne_zero.2 hneg.ne) (h hneg.ne) _
  case h_2 => trivial
  case h_3 hgt =>
    have hpos : 0 < z := compare_gt_iff_gt.1 hgt
    have habs : z.toNat = z.natAbs := by omega
    rw [habs]
    exact within_round hk (Int.natAbs_ne_zero.2 hpos.ne') (h hpos.ne') _

/-- Numbers that are lowered to a common exponent have a sum with one bit more at most. -/
theorem totalExponent_sum_le {m₁ m₂ : ℕ} {e₁ e₂ z : ℤ} (hm₁ : m₁ ≠ 0) (hm₂ : m₂ ≠ 0) (h₁ : totalExponent m₁ e₁ ≤ k)
    (h₂ : totalExponent m₂ e₂ ≤ k)
    (hz : z.natAbs ≤ m₁ * 2 ^ (e₁ - min e₁ e₂).toNat + m₂ * 2 ^ (e₂ - min e₁ e₂).toNat) :
    totalExponent z.natAbs (min e₁ e₂) ≤ k + 1 := by
  have hlog₁ := log2_mul_two_pow hm₁ (e₁ - min e₁ e₂).toNat
  have hlog₂ := log2_mul_two_pow hm₂ (e₂ - min e₁ e₂).toNat
  have hne₁ : m₁ * 2 ^ (e₁ - min e₁ e₂).toNat ≠ 0 := Nat.mul_ne_zero hm₁ (Nat.two_pow_pos _).ne'
  have hne₂ : m₂ * 2 ^ (e₂ - min e₁ e₂).toNat ≠ 0 := Nat.mul_ne_zero hm₂ (Nat.two_pow_pos _).ne'
  have hsum : z.natAbs.log2 ≤
      max (m₁ * 2 ^ (e₁ - min e₁ e₂).toNat).log2 (m₂ * 2 ^ (e₂ - min e₁ e₂).toNat).log2 + 1 := by
    rcases Nat.le_total (m₁ * 2 ^ (e₁ - min e₁ e₂).toNat) (m₂ * 2 ^ (e₂ - min e₁ e₂).toNat) with hle | hle
    · have hdouble := log2_mul_two_pow hne₂ 1
      have := log2_le_log2 (show z.natAbs ≤ m₂ * 2 ^ (e₂ - min e₁ e₂).toNat * 2 ^ 1 by omega)
      omega
    · have hdouble := log2_mul_two_pow hne₁ 1
      have := log2_le_log2 (show z.natAbs ≤ m₁ * 2 ^ (e₁ - min e₁ e₂).toNat * 2 ^ 1 by omega)
      omega
  rw [hlog₁, hlog₂] at hsum
  simp only [totalExponent] at h₁ h₂ ⊢
  omega

theorem natAbs_apply (sign : Sign) (z : ℤ) : (sign.apply z).natAbs = z.natAbs := by
  cases sign with
  | negative => exact Int.natAbs_neg z
  | positive => rfl

theorem within_normalize_sum {m₁ m₂ : ℕ} {e₁ e₂ z : ℤ} (hk : -1074 ≤ k) (hm₁ : 0 < m₁) (hm₂ : 0 < m₂)
    (h₁ : totalExponent m₁ e₁ ≤ k) (h₂ : totalExponent m₂ e₂ ≤ k)
    (hz : z.natAbs ≤ m₁ * 2 ^ (e₁ - min e₁ e₂).toNat + m₂ * 2 ^ (e₂ - min e₁ e₂).toNat) (sign : Sign) :
    Within (k + 2) (UnpackedFloat.normalize Format.binary64 z (min e₁ e₂) sign) := by
  have hsum := totalExponent_sum_le hm₁.ne' hm₂.ne' h₁ h₂ hz
  rw [show k + 2 = k + 1 + 1 by ring]
  exact within_normalize (by omega) (fun _ => hsum) sign

theorem within_add_sub (hk : -1074 ≤ k) (hx : Within k x) (hy : Within k y) :
    Within (k + 2) (UnpackedFloat.add Format.binary64 x y) ∧
      Within (k + 2) (UnpackedFloat.sub Format.binary64 x y) := by
  cases x with
  | infinity => exact absurd hx id
  | notANumber => exact absurd hx id
  | zero sign₁ =>
      cases y with
      | infinity => exact absurd hy id
      | notANumber => exact absurd hy id
      | zero sign₂ =>
          rw [UnpackedFloat.add, UnpackedFloat.sub]
          constructor <;> split <;> trivial
      | finite sign₂ m₂ e₂ hm₂ =>
          have hle : totalExponent m₂ e₂ ≤ k + 2 := le_trans hy (by omega)
          exact ⟨hle, hle⟩
  | finite sign₁ m₁ e₁ hm₁ =>
      cases y with
      | infinity => exact absurd hy id
      | notANumber => exact absurd hy id
      | zero => exact ⟨hx.mono (by omega), hx.mono (by omega)⟩
      | finite sign₂ m₂ e₂ hm₂ =>
          simp only [UnpackedFloat.add, UnpackedFloat.sub, decreaseExponent_eq]
          constructor
          · apply within_normalize_sum hk hm₁ hm₂ hx hy
            refine le_trans (Int.natAbs_add_le _ _) ?_
            rw [natAbs_apply, natAbs_apply, Int.natAbs_natCast, Int.natAbs_natCast]
          · apply within_normalize_sum hk hm₁ hm₂ hx hy
            refine le_trans (Int.natAbs_sub_le _ _) ?_
            rw [natAbs_apply, natAbs_apply, Int.natAbs_natCast, Int.natAbs_natCast]

theorem log2_mul_le (m n : ℕ) (hm : m ≠ 0) (hn : n ≠ 0) :
    m.log2 + n.log2 ≤ (m * n).log2 ∧ (m * n).log2 ≤ m.log2 + n.log2 + 1 := by
  have hne := Nat.mul_ne_zero hm hn
  constructor
  · rw [Nat.le_log2 hne, Nat.pow_add]
    exact Nat.mul_le_mul (Nat.log2_self_le hm) (Nat.log2_self_le hn)
  · have hlt : (m * n).log2 < m.log2 + 1 + (n.log2 + 1) := by
      rw [Nat.log2_lt hne, Nat.pow_add]
      exact Nat.mul_lt_mul'' Nat.lt_log2_self Nat.lt_log2_self
    omega

theorem within_mul (hkl : -1074 ≤ k + l) (hx : Within k x) (hy : Within l y) :
    Within (k + l + 1) (UnpackedFloat.mul Format.binary64 x y) := by
  cases x with
  | infinity => exact absurd hx id
  | notANumber => exact absurd hx id
  | zero sign₁ =>
      cases y with
      | infinity => exact absurd hy id
      | notANumber => exact absurd hy id
      | zero => trivial
      | finite => trivial
  | finite sign₁ m₁ e₁ hm₁ =>
      cases y with
      | infinity => exact absurd hy id
      | notANumber => exact absurd hy id
      | zero => trivial
      | finite sign₂ m₂ e₂ hm₂ =>
          have hlog := (log2_mul_le m₁ m₂ hm₁.ne' hm₂.ne').2
          simp only [Within, totalExponent] at hx hy
          simp only [UnpackedFloat.mul]
          refine within_roundWithAccuracy hkl ?_ _ _
          rw [totalExponent]
          omega

/-- Dividing by a number that is not below a power of two lowers by that power, up to two places. -/
theorem within_div (hkl : -1074 ≤ k - l) (hx : Within k x) (sign₂ : Sign) {m₂ : ℕ} {e₂ : ℤ} (hm₂ : 0 < m₂)
    (hy : l ≤ totalExponent m₂ e₂) :
    Within (k - l + 2) (UnpackedFloat.div Format.binary64 x (.finite sign₂ m₂ e₂ hm₂)) := by
  cases x with
  | infinity => exact absurd hx id
  | notANumber => exact absurd hx id
  | zero => trivial
  | finite sign₁ m₁ e₁ hm₁ =>
      simp only [Within, totalExponent] at hx hy
      simp only [UnpackedFloat.div, divCore]
      rw [show k - l + 2 = k - l + 1 + 1 by ring]
      refine within_roundWithAccuracy (by omega) ?_ _ _
      have htarget : Format.binary64.targetExponent (totalExponent m₁ e₁ - totalExponent m₂ e₂) =
          max (m₁.log2 + 1 + e₁ - (m₂.log2 + 1 + e₂) - 53) (-1074) := rfl
      rw [htarget, Nat.shiftLeft_eq]
      generalize hshift : (e₁ - e₂ - min (e₁ - e₂) (max (m₁.log2 + 1 + e₁ - (m₂.log2 + 1 + e₂) - 53) (-1074))).toNat = s
      have hlog := log2_mul_two_pow hm₁.ne' s
      by_cases hzero : m₁ * 2 ^ s / m₂ = 0
      · have hlogZero : Nat.log2 0 = 0 := Nat.log2_zero
        rw [hzero, totalExponent, hlogZero]
        omega
      · have hquotient := (log2_mul_le _ m₂ hzero hm₂.ne').1
        have hbelow := log2_le_log2 (Nat.div_mul_le_self (m₁ * 2 ^ s) m₂)
        rw [totalExponent]
        omega

end Operations

section Counts

/-- At least one, with all the bits of the mantissa, and with the leading digit at a given place or below it. -/
def Full (k : ℤ) (x : UnpackedFloat) : Prop :=
  ∃ m e h, x = .finite .positive m e h ∧ m.log2 = 52 ∧ 1 ≤ totalExponent m e ∧ totalExponent m e ≤ k

variable {k l : ℤ} {x y : UnpackedFloat}

theorem Full.within (h : Full k x) : Within k x := by
  obtain ⟨m, e, hpos, rfl, -, -, hk⟩ := h
  exact hk

theorem Full.mono (h : Full k x) (hkl : k ≤ l) : Full l x := by
  obtain ⟨m, e, hpos, hx, hbits, hlow, hk⟩ := h
  exact ⟨m, e, hpos, hx, hbits, hlow, le_trans hk hkl⟩

theorem full_roundWithAccuracy {m : ℕ} {e : ℤ} (hbits : 52 ≤ m.log2) (hlow : 1 ≤ totalExponent m e)
    (hk : totalExponent m e ≤ k) (accuracy : Accuracy) :
    Full (k + 1) (roundWithAccuracy Format.binary64 .positive m e accuracy) := by
  have hnormal : -1021 ≤ totalExponent m e := by omega
  obtain ⟨m', e', hpos, hround, hbits', hlow', hk'⟩ := roundWithAccuracy_full hbits hnormal .positive accuracy
  exact ⟨m', e', hpos, hround, hbits', by omega, by omega⟩

/-- A count of at least one is brought to all its bits. -/
theorem full_round {m : ℕ} {e : ℤ} (hm : m ≠ 0) (hlow : 1 ≤ totalExponent m e) (hk : totalExponent m e ≤ k) :
    Full (k + 1) (UnpackedFloat.round Format.binary64 .positive m e) := by
  have htarget : Format.binary64.targetExponent (totalExponent m e) = max (totalExponent m e - 53) (-1074) := rfl
  simp only [UnpackedFloat.round, decreaseExponent_eq]
  apply full_roundWithAccuracy
  · rw [log2_mul_two_pow hm, htarget]
    simp only [totalExponent] at hlow ⊢
    omega
  · rw [totalExponent_mul_two_pow hm]
    exact hlow
  · rw [totalExponent_mul_two_pow hm]
    exact hk

theorem full_normalize {n : ℕ} {e : ℤ} (hn : n ≠ 0) (hlow : 1 ≤ totalExponent n e) (hk : totalExponent n e ≤ k)
    (sign : Sign) : Full (k + 1) (UnpackedFloat.normalize Format.binary64 n e sign) := by
  have hcompare : compare (n : ℤ) 0 = .gt := compare_gt_iff_gt.2 (by omega)
  rw [UnpackedFloat.normalize, hcompare]
  exact full_round hn hlow hk

/-- A positive number may be added, however small it is. -/
theorem full_add (hx : Full k x) {m₂ : ℕ} {e₂ : ℤ} (hm₂ : 0 < m₂) (hk₂ : totalExponent m₂ e₂ ≤ k) :
    Full (k + 2) (UnpackedFloat.add Format.binary64 x (.finite .positive m₂ e₂ hm₂)) := by
  obtain ⟨m₁, e₁, hm₁, rfl, -, hlow₁, hk₁⟩ := hx
  have hle : m₁ * 2 ^ (e₁ - min e₁ e₂).toNat ≤ m₁ * 2 ^ (e₁ - min e₁ e₂).toNat + m₂ * 2 ^ (e₂ - min e₁ e₂).toNat :=
    Nat.le_add_right _ _
  have hfirst := log2_mul_two_pow hm₁.ne' (e₁ - min e₁ e₂).toNat
  have hlog := log2_le_log2 hle
  have hsum := totalExponent_sum_le (z := (m₁ * 2 ^ (e₁ - min e₁ e₂).toNat + m₂ * 2 ^ (e₂ - min e₁ e₂).toNat : ℕ))
    hm₁.ne' hm₂.ne' hk₁ hk₂ (Int.natAbs_natCast _).le
  rw [Int.natAbs_natCast] at hsum
  have hne : m₁ * 2 ^ (e₁ - min e₁ e₂).toNat ≠ 0 := Nat.mul_ne_zero hm₁.ne' (Nat.two_pow_pos _).ne'
  simp only [UnpackedFloat.add, decreaseExponent_eq, Sign.apply]
  rw [← Nat.cast_add]
  refine (full_normalize (by omega) ?_ hsum _).mono (by omega)
  simp only [totalExponent] at hlow₁ ⊢
  omega

/-- Mantissas of the same number of bits are far enough apart for a quotient with all its bits. -/
theorem le_log2_quotient {m₁ m₂ : ℕ} (hm₁ : 0 < m₁) (hm₂ : 0 < m₂) (hbits₁ : m₁.log2 = 52) (hbits₂ : m₂.log2 = 52) :
    52 ≤ (m₁ * 2 ^ 53 / m₂).log2 := by
  obtain ⟨hleast, -⟩ := (Nat.log2_eq_iff hm₁.ne').1 hbits₁
  obtain ⟨-, hbelow⟩ := (Nat.log2_eq_iff hm₂.ne').1 hbits₂
  have hle : 2 ^ 52 ≤ m₁ * 2 ^ 53 / m₂ := by
    rw [Nat.le_div_iff_mul_le hm₂]
    exact Nat.mul_le_mul hleast hbelow.le
  rw [← Nat.log2_two_pow (n := 52)]
  exact log2_le_log2 hle

/-- Numbers with all their bits are divided by dividing their mantissas, the first one shifted by 53 places. -/
theorem div_of_full {m₁ m₂ : ℕ} {e₁ e₂ : ℤ} (hm₁ : 0 < m₁) (hm₂ : 0 < m₂) (hbits₁ : m₁.log2 = 52)
    (hbits₂ : m₂.log2 = 52) (hlow : -1021 ≤ e₁ - e₂) :
    UnpackedFloat.div Format.binary64 (.finite .positive m₁ e₁ hm₁) (.finite .positive m₂ e₂ hm₂) =
      roundWithAccuracy Format.binary64 .positive (m₁ * 2 ^ 53 / m₂) (e₁ - e₂ - 53)
        (accuracyOfFraction (m₁ * 2 ^ 53 % m₂) m₂) := by
  have htarget : min (e₁ - e₂) (Format.binary64.targetExponent (totalExponent m₁ e₁ - totalExponent m₂ e₂)) =
      e₁ - e₂ - 53 := by
    change min (e₁ - e₂) (max (m₁.log2 + 1 + e₁ - (m₂.log2 + 1 + e₂) - 53) (-1074)) = _
    omega
  have hshift : (e₁ - e₂ - (e₁ - e₂ - 53)).toNat = 53 := by omega
  simp only [UnpackedFloat.div, divCore, htarget, hshift, Nat.shiftLeft_eq]
  rfl

/-- A quotient of numbers of at least one has all the bits of the mantissa, and may be below one. -/
theorem exists_div_of_full (hx : Full k x) (hy : Full k y) (hk : k ≤ 1022) :
    ∃ m e h, UnpackedFloat.div Format.binary64 x y = .finite .positive m e h ∧ m.log2 = 52 ∧
      1 - k ≤ totalExponent m e ∧ totalExponent m e ≤ k + 1 := by
  obtain ⟨m₁, e₁, hm₁, rfl, hbits₁, hlow₁, hk₁⟩ := hx
  obtain ⟨m₂, e₂, hm₂, rfl, hbits₂, hlow₂, hk₂⟩ := hy
  have habove := within_div (k := k) (x := .finite .positive m₁ e₁ hm₁) (by omega) hk₁ .positive hm₂ hlow₂
  simp only [totalExponent] at hlow₁ hk₂
  have hbits := le_log2_quotient hm₁ hm₂ hbits₁ hbits₂
  have hlow : 1 - k ≤ totalExponent (m₁ * 2 ^ 53 / m₂) (e₁ - e₂ - 53) := by
    rw [totalExponent]
    omega
  have hnormal : -1021 ≤ totalExponent (m₁ * 2 ^ 53 / m₂) (e₁ - e₂ - 53) := by omega
  rw [div_of_full hm₁ hm₂ hbits₁ hbits₂ (by omega)] at habove ⊢
  obtain ⟨m, e, hpos, hround, hfull, hraised, -⟩ := roundWithAccuracy_full hbits hnormal .positive
    (accuracyOfFraction (m₁ * 2 ^ 53 % m₂) m₂)
  rw [hround] at habove
  have hbound : totalExponent m e ≤ k - 1 + 2 := habove
  exact ⟨m, e, hpos, hround, hfull, by omega, by omega⟩

theorem unpack_pack_of_full (hk : k ≤ 972) (hx : Full k x) :
    unpack Format.binary64 (pack Format.binary64 x) = x := by
  obtain ⟨m, e, hpos, rfl, hbits, hlow, hhigh⟩ := hx
  simp only [totalExponent] at hlow hhigh
  exact unpack_pack_full hbits (by omega) (by omega) .positive hpos

end Counts

end UwbRanging.Rounding
