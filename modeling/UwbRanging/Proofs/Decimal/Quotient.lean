import Mathlib.Algebra.Order.Field.Power
import Mathlib.Data.Rat.Cast.Order
import Mathlib.Tactic.Linarith
import Mathlib.Tactic.FieldSimp
import Mathlib.Tactic.Positivity
import Mathlib.Tactic.Ring
import UwbRanging.Decimal.Nearest

/-!
What the exact integer arithmetic on quotients computes, said about the rational numbers that the quotients stand for.
-/

namespace UwbRanging.Quotient

/-- The number that a quotient stands for. -/
def toRat (q : Quotient) : ℚ :=
  q.num / q.den

section Powers

variable {q : Quotient} {base : ℕ}

theorem den_timesPower_pos (hden : 0 < q.den) (hbase : 0 < base) (e : ℤ) : 0 < (q.timesPower base e).den := by
  cases e with
  | ofNat e => exact hden
  | negSucc e => exact Nat.mul_pos hden (Nat.pow_pos hbase)

theorem num_timesPower_pos (hnum : 0 < q.num) (hbase : 0 < base) (e : ℤ) : 0 < (q.timesPower base e).num := by
  cases e with
  | ofNat e => exact Nat.mul_pos hnum (Nat.pow_pos hbase)
  | negSucc e => exact hnum

theorem toRat_timesPower (hbase : 0 < base) (e : ℤ) : (q.timesPower base e).toRat = q.toRat * (base : ℚ) ^ e := by
  have hne : (base : ℚ) ≠ 0 := Nat.cast_ne_zero.2 (Nat.ne_of_gt hbase)
  cases e with
  | ofNat e =>
      simp only [timesPower, toRat, Nat.pow_eq, Int.ofNat_eq_natCast, zpow_natCast]
      push_cast
      ring
  | negSucc e =>
      simp only [timesPower, toRat, Nat.pow_eq, zpow_negSucc]
      push_cast
      rw [div_mul_eq_div_div]
      rfl

theorem mul_den_le_num_iff (hden : 0 < q.den) (n : ℕ) : n * q.den ≤ q.num ↔ (n : ℚ) ≤ q.toRat := by
  rw [toRat, le_div_iff₀ (Nat.cast_pos.2 hden)]
  exact_mod_cast Iff.rfl

theorem num_le_mul_den_iff (hden : 0 < q.den) (n : ℕ) : q.num ≤ n * q.den ↔ q.toRat ≤ n := by
  rw [toRat, div_le_iff₀ (Nat.cast_pos.2 hden)]
  exact_mod_cast Iff.rfl

theorem one_le_toRat_iff (hden : 0 < q.den) : 1 ≤ q.toRat ↔ q.den ≤ q.num := by
  rw [← Nat.cast_one, ← mul_den_le_num_iff hden, Nat.one_mul]

end Powers

section Rounding

variable {q : Quotient}

theorem num_eq (q : Quotient) : q.num = q.den * (q.num / q.den) + q.num % q.den :=
  (Nat.div_add_mod q.num q.den).symm

/-- The count nearest to a number. Half way between two counts it is the even one. -/
structure HalfEven (v : ℚ) (n : ℕ) : Prop where
  low : (n : ℚ) - 1 / 2 ≤ v
  high : v ≤ (n : ℚ) + 1 / 2
  odd : n % 2 = 1 → (n : ℚ) - 1 / 2 < v ∧ v < n + 1 / 2

theorem HalfEven.not_lt {v : ℚ} {m n : ℕ} (hm : HalfEven v m) (hn : HalfEven v n) : ¬ m < n := by
  intro hlt
  have hnext : (m : ℚ) + 1 ≤ n := by exact_mod_cast hlt
  have hlow := hn.low
  have hhigh := hm.high
  -- both ends are reached, and one of the two counts is odd
  have heq : n = m + 1 := by
    have hcast : (n : ℚ) = m + 1 := by linarith
    exact_mod_cast hcast
  rcases Nat.mod_two_eq_zero_or_one m with heven | hodd
  · have hstrict := (hn.odd (by omega)).1
    linarith
  · have hstrict := (hm.odd hodd).2
    linarith

theorem HalfEven.unique {v : ℚ} {m n : ℕ} (hm : HalfEven v m) (hn : HalfEven v n) : m = n :=
  Nat.le_antisymm (Nat.not_lt.1 (hn.not_lt hm)) (Nat.not_lt.1 (hm.not_lt hn))

/-- What rounding leaves over is at most a half, and less than that if the result is odd. -/
theorem roundHalfEven_remainder (q : Quotient) (hden : 0 < q.den) :
    2 * (q.den * q.roundHalfEven) ≤ 2 * q.num + q.den ∧ 2 * q.num ≤ 2 * (q.den * q.roundHalfEven) + q.den ∧
      (q.roundHalfEven % 2 = 1 →
        2 * (q.den * q.roundHalfEven) < 2 * q.num + q.den ∧ 2 * q.num < 2 * (q.den * q.roundHalfEven) + q.den) := by
  have hnum := q.num_eq
  have hmod : q.num % q.den < q.den := Nat.mod_lt _ hden
  unfold roundHalfEven
  generalize q.num / q.den = whole at hnum ⊢
  generalize q.num % q.den = part at hnum hmod ⊢
  simp only
  split
  · omega
  · split
    · rw [Nat.mul_add]
      omega
    · rcases Nat.mod_two_eq_zero_or_one whole with heven | hodd
      · rw [heven, Nat.add_zero]
        omega
      · rw [hodd, Nat.mul_add]
        omega

theorem halfEven_roundHalfEven (hden : 0 < q.den) : HalfEven q.toRat q.roundHalfEven := by
  have hpos : (0 : ℚ) < q.den := Nat.cast_pos.2 hden
  obtain ⟨hlow, hhigh, hodd⟩ := q.roundHalfEven_remainder hden
  have hlow' : (2 * (q.den * q.roundHalfEven) : ℚ) ≤ 2 * q.num + q.den := by exact_mod_cast hlow
  have hhigh' : (2 * q.num : ℚ) ≤ 2 * (q.den * q.roundHalfEven) + q.den := by exact_mod_cast hhigh
  rw [toRat]
  refine ⟨?_, ?_, fun h => ?_⟩
  · rw [le_div_iff₀ hpos]
    linarith
  · rw [div_le_iff₀ hpos]
    linarith
  · obtain ⟨hlow, hhigh⟩ := hodd h
    have hlow' : (2 * (q.den * q.roundHalfEven) : ℚ) < 2 * q.num + q.den := by exact_mod_cast hlow
    have hhigh' : (2 * q.num : ℚ) < 2 * (q.den * q.roundHalfEven) + q.den := by exact_mod_cast hhigh
    rw [lt_div_iff₀ hpos, div_lt_iff₀ hpos]
    constructor <;> linarith

theorem roundHalfEven_eq (hden : 0 < q.den) {n : ℕ} (h : HalfEven q.toRat n) : q.roundHalfEven = n :=
  (halfEven_roundHalfEven hden).unique h

theorem abs_roundHalfEven_sub_le (hden : 0 < q.den) : |(q.roundHalfEven : ℚ) - q.toRat| ≤ 1 / 2 := by
  have h := halfEven_roundHalfEven hden
  have hlow := h.low
  have hhigh := h.high
  rw [abs_le]
  constructor <;> linarith

end Rounding

section Leading

variable {q : Quotient}

theorem toRat_pos (hnum : 0 < q.num) (hden : 0 < q.den) : 0 < q.toRat :=
  div_pos (Nat.cast_pos.2 hnum) (Nat.cast_pos.2 hden)

/-- The bits of both counts tell the leading binary digit up to one place. -/
theorem toRat_mem_of_log2 (hnum : 0 < q.num) (hden : 0 < q.den) :
    (2 : ℚ) ^ ((q.num.log2 : ℤ) - q.den.log2 - 1) ≤ q.toRat ∧ q.toRat < 2 ^ ((q.num.log2 : ℤ) - q.den.log2 + 1) := by
  have hpos : (0 : ℚ) < q.den := Nat.cast_pos.2 hden
  have hnumLow : (2 : ℚ) ^ (q.num.log2 : ℤ) ≤ q.num := by exact_mod_cast Nat.log2_self_le (Nat.ne_of_gt hnum)
  have hnumHigh : (q.num : ℚ) < 2 ^ ((q.num.log2 : ℤ) + 1) := by exact_mod_cast Nat.lt_log2_self
  have hdenLow : (2 : ℚ) ^ (q.den.log2 : ℤ) ≤ q.den := by exact_mod_cast Nat.log2_self_le (Nat.ne_of_gt hden)
  have hdenHigh : (q.den : ℚ) < 2 ^ ((q.den.log2 : ℤ) + 1) := by exact_mod_cast Nat.lt_log2_self
  constructor
  · rw [toRat, le_div_iff₀ hpos]
    calc (2 : ℚ) ^ ((q.num.log2 : ℤ) - q.den.log2 - 1) * q.den
        ≤ 2 ^ ((q.num.log2 : ℤ) - q.den.log2 - 1) * 2 ^ ((q.den.log2 : ℤ) + 1) :=
          mul_le_mul_of_nonneg_left hdenHigh.le (by positivity)
      _ = 2 ^ (q.num.log2 : ℤ) := by rw [← zpow_add₀ (by norm_num)]; congr 1; ring
      _ ≤ q.num := hnumLow
  · rw [toRat, div_lt_iff₀ hpos]
    calc (q.num : ℚ) < 2 ^ ((q.num.log2 : ℤ) + 1) := hnumHigh
      _ = 2 ^ ((q.num.log2 : ℤ) - q.den.log2 + 1) * 2 ^ (q.den.log2 : ℤ) := by
          rw [← zpow_add₀ (by norm_num)]; congr 1; ring
      _ ≤ 2 ^ ((q.num.log2 : ℤ) - q.den.log2 + 1) * q.den := mul_le_mul_of_nonneg_left hdenLow (by positivity)

/-- Scaling a quotient by a power shows whether it has reached the inverse power. -/
theorem den_le_num_timesPower_iff (hden : 0 < q.den) {base : ℕ} (hbase : 0 < base) (e : ℤ) :
    (q.timesPower base e).den ≤ (q.timesPower base e).num ↔ (base : ℚ) ^ (-e) ≤ q.toRat := by
  have hpos : (0 : ℚ) < (base : ℚ) ^ e := zpow_pos (Nat.cast_pos.2 hbase) e
  rw [← one_le_toRat_iff (den_timesPower_pos hden hbase e), toRat_timesPower hbase, zpow_neg,
    inv_le_iff_one_le_mul₀ hpos]

theorem leadingBit_spec (hnum : 0 < q.num) (hden : 0 < q.den) :
    (2 : ℚ) ^ q.leadingBit ≤ q.toRat ∧ q.toRat < 2 ^ (q.leadingBit + 1) := by
  obtain ⟨hlow, hhigh⟩ := toRat_mem_of_log2 hnum hden
  have hiff := den_le_num_timesPower_iff hden (show 0 < 2 by decide) (-((q.num.log2 : ℤ) - q.den.log2))
  rw [neg_neg, Nat.cast_ofNat] at hiff
  by_cases h : (2 : ℚ) ^ ((q.num.log2 : ℤ) - q.den.log2) ≤ q.toRat
  · have hbit : q.leadingBit = (q.num.log2 : ℤ) - q.den.log2 := if_pos (hiff.2 h)
    rw [hbit]
    exact ⟨h, hhigh⟩
  · have hbit : q.leadingBit = (q.num.log2 : ℤ) - q.den.log2 - 1 := if_neg (mt hiff.1 h)
    rw [hbit, sub_add_cancel]
    exact ⟨hlow, not_le.1 h⟩

theorem leadingBit_lt_iff (hnum : 0 < q.num) (hden : 0 < q.den) (k : ℤ) : q.leadingBit < k ↔ q.toRat < 2 ^ k := by
  obtain ⟨hlow, hhigh⟩ := leadingBit_spec hnum hden
  constructor
  · intro h
    exact hhigh.trans_le (zpow_le_zpow_right₀ (by norm_num) h)
  · intro h
    exact (zpow_lt_zpow_iff_right₀ (by norm_num : (1 : ℚ) < 2)).1 (hlow.trans_lt h)

theorem pow_length_toDigits {n : ℕ} (hn : 0 < n) :
    10 ^ ((Nat.toDigits 10 n).length - 1) ≤ n ∧ n + 1 ≤ 10 ^ (Nat.toDigits 10 n).length := by
  have hlength : 0 < (Nat.toDigits 10 n).length := List.length_pos_of_ne_nil Nat.toDigits_ne_nil
  refine ⟨?_, (Nat.length_toDigits_le_iff (by decide) hlength).1 (Nat.le_refl _)⟩
  by_cases hone : (Nat.toDigits 10 n).length = 1
  · rw [hone]
    exact hn
  · by_contra hlt
    have hshort := (Nat.length_toDigits_le_iff (b := 10) (by decide) (by omega)).2 (not_le.1 hlt)
    omega

theorem whole_le_toRat (hden : 0 < q.den) :
    ((q.num / q.den : ℕ) : ℚ) ≤ q.toRat ∧ q.toRat < ((q.num / q.den + 1 : ℕ) : ℚ) := by
  have hpos : (0 : ℚ) < q.den := Nat.cast_pos.2 hden
  have hnum := q.num_eq
  have hmod : q.num % q.den < q.den := Nat.mod_lt _ hden
  rw [toRat, le_div_iff₀ hpos, div_lt_iff₀ hpos]
  constructor
  · have h : q.num / q.den * q.den ≤ q.num := Nat.div_mul_le_self _ _
    exact_mod_cast h
  · have h : q.num < (q.num / q.den + 1) * q.den := by
      rw [Nat.add_mul, Nat.mul_comm (q.num / q.den)]
      omega
    exact_mod_cast h

/-- The digits of the whole part tell the leading decimal digit of a quotient of at least one. -/
theorem toRat_mem_of_toDigits (hden : 0 < q.den) (hge : q.den ≤ q.num) :
    (10 : ℚ) ^ ((Nat.toDigits 10 (q.num / q.den)).length - 1 : ℤ) ≤ q.toRat ∧
      q.toRat < 10 ^ ((Nat.toDigits 10 (q.num / q.den)).length : ℤ) := by
  obtain ⟨hlow, hhigh⟩ := pow_length_toDigits (Nat.div_pos hge hden)
  obtain ⟨hwhole, hnext⟩ := whole_le_toRat hden
  have hlength : 0 < (Nat.toDigits 10 (q.num / q.den)).length := List.length_pos_of_ne_nil Nat.toDigits_ne_nil
  have hcast : ((Nat.toDigits 10 (q.num / q.den)).length - 1 : ℤ) =
      ((Nat.toDigits 10 (q.num / q.den)).length - 1 : ℕ) := by omega
  constructor
  · rw [hcast, zpow_natCast]
    exact le_trans (by exact_mod_cast hlow) hwhole
  · rw [zpow_natCast]
    exact lt_of_lt_of_le hnext (by exact_mod_cast hhigh)

/-- Below one the digits of the inverse tell the leading decimal digit up to one place. -/
theorem toRat_mem_of_toDigits_inverse (hnum : 0 < q.num) (hden : 0 < q.den) (hle : q.num ≤ q.den) :
    (10 : ℚ) ^ (-(Nat.toDigits 10 (q.den / q.num)).length : ℤ) ≤ q.toRat ∧
      q.toRat ≤ 10 ^ (-((Nat.toDigits 10 (q.den / q.num)).length - 1) : ℤ) := by
  obtain ⟨hlow, hhigh⟩ := toRat_mem_of_toDigits (q := ⟨q.den, q.num⟩) hnum hle
  have hinverse : (⟨q.den, q.num⟩ : Quotient).toRat = q.toRat⁻¹ := (inv_div _ _).symm
  have hpos := toRat_pos hnum hden
  rw [hinverse] at hlow hhigh
  rw [zpow_neg, zpow_neg]
  exact ⟨(inv_le_comm₀ hpos (by positivity)).1 hhigh.le, (le_inv_comm₀ (by positivity) hpos).1 hlow⟩

theorem leadingExponent_spec (hnum : 0 < q.num) (hden : 0 < q.den) :
    (10 : ℚ) ^ q.leadingExponent ≤ q.toRat ∧ q.toRat < 10 ^ (q.leadingExponent + 1) := by
  by_cases hge : q.den ≤ q.num
  · have hlead : q.leadingExponent = ((Nat.toDigits 10 (q.num / q.den)).length : ℤ) - 1 := if_pos hge
    rw [hlead, sub_add_cancel]
    exact toRat_mem_of_toDigits hden hge
  · obtain ⟨hlower, hupper⟩ := toRat_mem_of_toDigits_inverse hnum hden (Nat.le_of_lt (Nat.not_le.1 hge))
    have hiff := den_le_num_timesPower_iff hden (show 0 < 10 by decide)
      ((Nat.toDigits 10 (q.den / q.num)).length - 1 : ℤ)
    have hlead : q.leadingExponent = if (q.timesPower 10 ((Nat.toDigits 10 (q.den / q.num)).length - 1 : ℤ)).den ≤
        (q.timesPower 10 ((Nat.toDigits 10 (q.den / q.num)).length - 1 : ℤ)).num then
          -((Nat.toDigits 10 (q.den / q.num)).length - 1 : ℤ) else -((Nat.toDigits 10 (q.den / q.num)).length : ℤ) :=
      if_neg hge
    generalize ((Nat.toDigits 10 (q.den / q.num)).length : ℤ) = e at hlower hupper hiff hlead
    rw [Nat.cast_ofNat] at hiff
    by_cases hreached : (10 : ℚ) ^ (-(e - 1)) ≤ q.toRat
    · rw [hlead, if_pos (hiff.2 hreached)]
      exact ⟨hreached, lt_of_le_of_lt hupper (zpow_lt_zpow_right₀ (by norm_num) (by omega))⟩
    · rw [hlead, if_neg (mt hiff.1 hreached)]
      have hexponent : -e + 1 = -(e - 1) := by ring
      rw [hexponent]
      exact ⟨hlower, not_le.1 hreached⟩

end Leading

end UwbRanging.Quotient
