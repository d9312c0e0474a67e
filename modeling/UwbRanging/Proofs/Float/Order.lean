import UwbRanging.Proofs.Float.Value

/-!
The order of binary64 numbers, told by their parts. It is the order of the numbers that they stand for. From it sums
and quotients are known to stay above zero where the exact ones do, and the point half way from a probability to one
is known to stay below one, unless that probability is the greatest of all. To add nothing changes no place in it.
-/

namespace UwbRanging

open Float.Model (Format totalExponent UnpackedFloat)
open Float.Model.UnpackedFloat
open Rounding

variable {k : ℤ} {x y : Float}

theorem lt_iff_unpack : x < y ↔ x.toModel.unpack.compare y.toModel.unpack = some .lt :=
  decide_eq_true_iff.trans beq_iff_eq

namespace Rounding

section Magnitudes

variable {m n : ℕ} {e f : ℤ} {hm : 0 < m} {hn : 0 < n} {s t : Sign}

/-- Of two numbers of the format the one with the larger exponent is greater, for its mantissa has all its bits. -/
theorem magnitude_lt_of_exponent_lt (hx : Canonical (.finite s m e hm)) (hy : Canonical (.finite t n f hn))
    (h : e < f) : (m * 2 ^ e : ℚ) < n * 2 ^ f := by
  rw [Canonical, targetExponent_eq] at hx hy
  have hless : m < 2 ^ 53 := (Nat.log2_lt hm.ne').1 (by omega)
  have hfull : 2 ^ 52 ≤ n := (Nat.le_log2 hn.ne').1 (by omega)
  have hless' : (m : ℚ) < 2 ^ 53 := by exact_mod_cast hless
  have hfull' : (2 : ℚ) ^ 52 ≤ n := by exact_mod_cast hfull
  calc (m * 2 ^ e : ℚ) < 2 ^ 53 * 2 ^ e := mul_lt_mul_of_pos_right hless' (by positivity)
    _ = 2 ^ 52 * 2 ^ (e + 1) := by rw [zpow_add_one₀ two_ne_zero]; ring
    _ ≤ 2 ^ 52 * 2 ^ f := mul_le_mul_of_nonneg_left (zpow_le_zpow_right₀ one_le_two h) (by positivity)
    _ ≤ n * 2 ^ f := mul_le_mul_of_nonneg_right hfull' (by positivity)

theorem magnitude_lt_iff (hx : Canonical (.finite s m e hm)) (hy : Canonical (.finite t n f hn)) :
    (compare e f).then (compare m n) = .lt ↔ (m * 2 ^ e : ℚ) < n * 2 ^ f := by
  rw [Ordering.then_eq_lt, compare_lt_iff_lt, compare_eq_iff_eq, compare_lt_iff_lt]
  rcases lt_trichotomy e f with h | rfl | h
  · simp [h, magnitude_lt_of_exponent_lt hx hy h]
  · simp [mul_lt_mul_iff_left₀ (zpow_pos (two_pos : (0 : ℚ) < 2) e)]
  · simp [h.not_gt, h.ne', (magnitude_lt_of_exponent_lt hy hx h).le]

theorem compare_eq_lt_iff {x y : UnpackedFloat} {u v : ℚ} (hx : Stands x u) (hy : Stands y v) (hcx : Canonical x)
    (hcy : Canonical y) : x.compare y = some .lt ↔ u < v := by
  obtain ⟨s, rfl, rfl⟩ | ⟨s, m, e, hm, rfl, rfl⟩ := hx.zero_or_finite
  · obtain ⟨t, rfl, rfl⟩ | ⟨t, n, f, hn, rfl, rfl⟩ := hy.zero_or_finite
    · simp [UnpackedFloat.compare]
    · have hsize : (0 : ℚ) < n * 2 ^ f := by positivity
      cases t <;> simp [UnpackedFloat.compare, signed, hsize, hsize.le]
  · have hsize : (0 : ℚ) < m * 2 ^ e := by positivity
    obtain ⟨t, rfl, rfl⟩ | ⟨t, n, f, hn, rfl, rfl⟩ := hy.zero_or_finite
    · cases s <;> simp [UnpackedFloat.compare, signed, hsize, hsize.le]
    · have hsize' : (0 : ℚ) < n * 2 ^ f := by positivity
      cases s <;> cases t <;> simp only [UnpackedFloat.compare, signed, Option.some.injEq, reduceCtorEq, false_iff,
        true_iff, not_lt]
      · rw [neg_lt_neg_iff, ← magnitude_lt_iff hcy hcx, Ordering.swap_then, ← Std.OrientedOrd.eq_swap (a := f),
          ← Std.OrientedOrd.eq_swap (a := n)]
      · exact (neg_neg_of_pos hsize).trans hsize'
      · exact (neg_neg_of_pos hsize').le.trans hsize.le
      · exact magnitude_lt_iff hcx hcy

end Magnitudes

section Comparison

theorem compare_total {u v : UnpackedFloat} (hu : u ≠ .notANumber) (hv : v ≠ .notANumber) :
    u.compare v = some .lt ∨ u.compare v = some .eq ∨ v.compare u = some .lt := by
  have hnumbers (e f : ℤ) (m n : ℕ) :
      (compare e f).then (compare m n) = .lt ∨ (compare e f).then (compare m n) = .eq ∨
        (compare f e).then (compare n m) = .lt := by
    simp only [Ordering.then_eq_lt, Ordering.then_eq_eq, compare_lt_iff_lt, compare_eq_iff_eq]
    omega
  cases u with
  | notANumber => exact absurd rfl hu
  | zero s =>
      cases v with
      | notANumber => exact absurd rfl hv
      | zero t => exact .inr (.inl rfl)
      | infinity t => cases t <;> simp [UnpackedFloat.compare]
      | finite t => cases t <;> simp [UnpackedFloat.compare]
  | infinity s =>
      cases v with
      | notANumber => exact absurd rfl hv
      | zero t => cases s <;> simp [UnpackedFloat.compare]
      | infinity t => cases s <;> cases t <;> decide
      | finite t => cases s <;> cases t <;> simp [UnpackedFloat.compare]
  | finite s m e hm =>
      cases v with
      | notANumber => exact absurd rfl hv
      | zero t => cases s <;> simp [UnpackedFloat.compare]
      | infinity t => cases s <;> cases t <;> simp [UnpackedFloat.compare]
      | finite t n f hn =>
          cases s <;> cases t <;> simp only [UnpackedFloat.compare, Option.some.injEq]
          · simp only [Ordering.swap_then, ← Std.OrientedOrd.eq_swap]
            exact hnumbers f e n m
          · simp
          · simp
          · exact hnumbers e f m n

theorem isFinite_of_unpack_pack {u : UnpackedFloat}
    (h : (unpack Format.binary64 (pack Format.binary64 u)).isFinite = true) : u.isFinite = true := by
  cases u with
  | notANumber => exact absurd h (by decide)
  | infinity sign => cases sign <;> exact absurd h (by decide)
  | zero => rfl
  | finite => rfl

theorem isFinite_right_of_sub {u v : UnpackedFloat} (h : (UnpackedFloat.sub Format.binary64 u v).isFinite = true) :
    v.isFinite = true := by
  cases v with
  | zero => rfl
  | finite => rfl
  | notANumber => cases u <;> cases h
  | infinity sign =>
      cases u with
      | infinity sign' => cases sign <;> cases sign' <;> cases h
      | notANumber => cases h
      | zero => cases h
      | finite => cases h

theorem exists_zero_mul {u : UnpackedFloat} (h : u.isFinite = true) :
    ∃ sign, UnpackedFloat.mul Format.binary64 (.zero .positive) u = .zero sign := by
  cases u with
  | notANumber => cases h
  | infinity => cases h
  | zero => exact ⟨_, rfl⟩
  | finite => exact ⟨_, rfl⟩

theorem exists_zero_add_zero (s t : Sign) :
    ∃ sign, UnpackedFloat.add Format.binary64 (.zero s) (.zero t) = .zero sign := by
  cases s <;> cases t <;> exact ⟨_, rfl⟩

/-- All zeros compare alike. -/
theorem compare_zero (s t : Sign) (u : UnpackedFloat) :
    UnpackedFloat.compare (.zero s) u = UnpackedFloat.compare (.zero t) u := by
  cases u with
  | infinity sign => cases sign <;> rfl
  | finite sign => cases sign <;> rfl
  | zero => rfl
  | notANumber => rfl

end Comparison

end Rounding

/-- Binary64 numbers are in the order of the numbers that they stand for. -/
theorem Represents.lt_iff {u v : ℚ} (hx : Represents x u) (hy : Represents y v) : x < y ↔ u < v :=
  lt_iff_unpack.trans (compare_eq_lt_iff hx hy (canonical_unpack hx) (canonical_unpack hy))

/-- Above zero is what is finite and positive, and the infinite. -/
theorem zero_lt_iff_unpack : 0 < x ↔
    (∃ m e hpos, x.toModel.unpack = .finite .positive m e hpos) ∨ x.toModel.unpack = .infinity .positive := by
  have hzero : (0 : Float).toModel.unpack = .zero .positive := unpack_zero
  rw [lt_iff_unpack, hzero]
  cases x.toModel.unpack with
  | notANumber => simp [UnpackedFloat.compare]
  | zero sign => simp [UnpackedFloat.compare]
  | infinity sign => cases sign <;> simp [UnpackedFloat.compare]
  | finite sign m e hpos => cases sign <;> simp [UnpackedFloat.compare, hpos]

section Ends

variable {x y width : Float}

theorem isFinite_subtrahend (h : (y - x).isFinite = true) : x.isFinite = true :=
  isFinite_right_of_sub (isFinite_of_unpack_pack h)

/-- Nothing of a finite width added leaves a number as it is. -/
theorem zero_mul_add_lt {zero : Float} (hzero : zero.toModel.unpack = .zero .positive) (hwidth : width.isFinite = true)
    (hfinite : x.isFinite = true) (h : x < y) : zero * width + x < y := by
  obtain ⟨sign, hproduct⟩ : ∃ sign, (zero * width).toModel.unpack = .zero sign := by
    obtain ⟨sign, hmul⟩ := exists_zero_mul hwidth
    refine ⟨sign, ?_⟩
    change unpack Format.binary64 (pack Format.binary64 (UnpackedFloat.mul Format.binary64 _ _)) = _
    rw [hzero, hmul, pack, unpack_packedZero]
  rw [lt_iff_unpack] at h ⊢
  change (unpack Format.binary64 (pack Format.binary64 (UnpackedFloat.add Format.binary64 _ _))).compare _ = _
  change x.toModel.unpack.isFinite = true at hfinite
  rw [hproduct]
  cases hx : x.toModel.unpack with
  | zero sign' =>
      obtain ⟨sign'', hsum⟩ := exists_zero_add_zero sign sign'
      rw [hsum, pack, unpack_packedZero, compare_zero sign'' sign', ← hx]
      exact h
  | finite sign' m e hm =>
      have hsum : UnpackedFloat.add Format.binary64 (.zero sign) (.finite sign' m e hm) = .finite sign' m e hm := rfl
      rw [hsum, unpack_pack_unpack hx, ← hx]
      exact h
  | infinity => rw [hx] at hfinite; cases hfinite
  | notANumber => rw [hx] at hfinite; cases hfinite

theorem neg_lt_self_of_pos (h : 0 < x) : -x < x := by
  rw [lt_iff_unpack]
  change (unpack Format.binary64 (pack Format.binary64 (UnpackedFloat.neg x.toModel.unpack))).compare _ = _
  rcases zero_lt_iff_unpack.1 h with ⟨m, e, hm, hx⟩ | hx
  · have hneg : UnpackedFloat.neg (.finite .positive m e hm) = .finite .negative m e hm := rfl
    rw [hx, hneg, unpack_pack_unpack hx]
    rfl
  · rw [hx]
    rfl

end Ends

/-- Between zero and one a number is finite, and its leading digit is behind the point. -/
theorem exists_unpack_of_lt_one (hzero : 0 < x) (hone : x < 1) :
    ∃ m e hpos, x.toModel.unpack = .finite .positive m e hpos ∧ totalExponent m e ≤ 0 := by
  have hunpackOne : (1 : Float).toModel.unpack = .finite .positive (2 ^ 52) (-52) (by decide) := by rfl
  rw [lt_iff_unpack, hunpackOne] at hone
  rcases zero_lt_iff_unpack.1 hzero with ⟨m, e, hpos, hunpack⟩ | hunpack
  · have hlog : m.log2 ≤ 52 := log2_le_of_unpack hunpack
    rw [hunpack] at hone
    have hless : e < -52 ∨ e = -52 ∧ m < 2 ^ 52 := by
      simpa [UnpackedFloat.compare, Ordering.then_eq_lt, compare_lt_iff_lt, compare_eq_iff_eq] using hone
    refine ⟨m, e, hpos, hunpack, ?_⟩
    rw [totalExponent]
    rcases hless with hless | ⟨rfl, hless⟩
    · omega
    · have hbits := (Nat.log2_lt hpos.ne').2 hless
      omega
  · rw [hunpack] at hone
    cases hone

theorem Positive.add_of_lt_one (hx : Positive k x) (hzero : 0 < y) (hone : y < 1) (hlow : 0 ≤ k) (hhigh : k ≤ 970) :
    Positive (k + 2) (x + y) := by
  obtain ⟨m, e, hpos, hunpack, hbelow⟩ := exists_unpack_of_lt_one hzero hone
  have hfull := full_add hx hpos (hbelow.trans hlow)
  rw [← hunpack] at hfull
  exact positive_of_full rfl (by omega) hfull

/-- A quotient of numbers that are not too far apart does not vanish. -/
theorem Positive.div_pos (hx : Positive k x) (hy : Positive k y) (hk : k ≤ 970) : 0 < x / y := by
  obtain ⟨m, e, hpos, hdiv, hbits, hlow, hhigh⟩ := exists_div_of_full hx hy (by omega)
  have hunpack : (x / y).toModel.unpack = .finite .positive m e hpos := by
    change unpack Format.binary64 (pack Format.binary64 (UnpackedFloat.div Format.binary64 _ _)) = _
    simp only [totalExponent] at hlow hhigh
    rw [hdiv, unpack_pack_full hbits (by omega) (by omega)]
  exact zero_lt_iff_unpack.2 (.inl ⟨m, e, hpos, hunpack⟩)

theorem isProbability_iff {p : Float} : Arith.isProbability p = true ↔ 0 < p ∧ p < 1 := by
  rw [Arith.isProbability, Bool.and_eq_true]
  exact and_congr decide_eq_true_iff decide_eq_true_iff

section Halfway

variable {c : Float} {v : ℚ}

/-- The greatest number below one. -/
def greatestBelowOne : Float :=
  Float.ofBits 0x3FEFFFFFFFFFFFFF

theorem unpack_greatestBelowOne :
    greatestBelowOne.toModel.unpack = .finite .positive (2 ^ 53 - 1) (-53) (by decide) := by
  rfl

theorem represents_one : Represents 1 1 := by
  have hone : Represents (Float.ofNat 1) (1 : ℕ) := .ofNat (by decide)
  rwa [Nat.cast_one] at hone

theorem exists_represents_of_lt_one (hzero : 0 < c) (hone : c < 1) : ∃ v, Represents c v ∧ 0 < v ∧ v < 1 := by
  obtain ⟨m, e, hpos, hunpack, -⟩ := exists_unpack_of_lt_one hzero hone
  have hc : Represents c (m * 2 ^ e) := by
    rw [Represents, hunpack]
    rfl
  exact ⟨_, hc, by positivity, (hc.lt_iff represents_one).1 hone⟩

/-- Between one and two the last place of a mantissa is worth `2 ^ -52`. -/
theorem Positive.exists_mantissa {k : ℤ} (hx : Positive k x) (hv : Represents x v) (h : v < 2) :
    ∃ n : ℕ, v = n * 2 ^ (-52 : ℤ) := by
  obtain ⟨n, f, hn, hunpack, hbits, hlow, -⟩ := hx
  have hvalue : v = n * 2 ^ f := by
    rwa [Represents, hunpack] at hv
  have hfull : (2 : ℚ) ^ 52 ≤ n := by exact_mod_cast (Nat.le_log2 hn.ne').1 hbits.ge
  have hpower : (2 : ℚ) ^ (52 + f) < 2 ^ (1 : ℤ) := by
    calc (2 : ℚ) ^ (52 + f) = 2 ^ 52 * 2 ^ f := by rw [zpow_add₀ two_ne_zero]; rfl
      _ ≤ n * 2 ^ f := mul_le_mul_of_nonneg_right hfull (by positivity)
      _ < 2 ^ (1 : ℤ) := by rwa [← hvalue, zpow_one]
  have hless := (zpow_lt_zpow_iff_right₀ (one_lt_two : (1 : ℚ) < 2)).1 hpower
  rw [totalExponent] at hlow
  obtain rfl : f = -52 := by omega
  exact ⟨n, hvalue⟩

theorem positive_one_add (hzero : 0 < c) (hone : c < 1) : Positive 57 (1 + c) :=
  (positive_ofNat (n := 1) (by decide) (by decide)).add_of_lt_one hzero hone (by decide) (by decide)

/-- Half way between a probability and one is above zero. -/
theorem zero_lt_level (hzero : 0 < c) (hone : c < 1) : 0 < (1 + c) / 2 := by
  have htwo : Positive 57 (2 : Float) := (positive_ofNat (n := 2) (by decide) (by decide)).mono (by decide)
  exact (positive_one_add hzero hone).div_pos htwo (by decide)

/-- Below the greatest number below one, the sum with one stays below two, and half of it is not rounded. -/
theorem level_lt_one (hzero : 0 < c) (hone : c < 1) (h : c < greatestBelowOne) : (1 + c) / 2 < 1 := by
  obtain ⟨v, hv, hvPos, hvLess⟩ := exists_represents_of_lt_one hzero hone
  have hgreatest : Represents greatestBelowOne (1 - 2 ^ (-53 : ℤ)) := by
    rw [Represents, unpack_greatestBelowOne, Stands, signed]
    norm_num
  have hgap : v < 1 - 2 ^ (-53 : ℤ) := (hv.lt_iff hgreatest).1 h
  have hsize : |1 + v| < 2 ^ (1 : ℤ) := by
    rw [abs_of_pos (by linarith), zpow_one]
    linarith
  obtain ⟨w, hw, hround⟩ := represents_one.add hv (hsize.trans (zpow_lt_zpow_right₀ one_lt_two (by decide)))
  have herror := abs_le.1 (hround.error 1 (by decide) hsize)
  norm_num at herror hgap
  obtain ⟨n, hn⟩ := (positive_one_add hzero hone).exists_mantissa hw (by linarith)
  have htwo : Represents 2 (2 : ℕ) := .ofNat (by decide)
  have hhalf : |w / 2| < 2 ^ (0 : ℤ) := by
    rw [abs_of_pos (by linarith), zpow_zero]
    linarith
  obtain ⟨q, hq, hround⟩ := hw.div htwo two_ne_zero (hhalf.trans (zpow_lt_zpow_right₀ one_lt_two (by decide)))
  have hexact : q = w / 2 := hround.exact 0 n (by decide) hhalf (by rw [hn]; norm_num; ring)
  exact (hq.lt_iff represents_one).2 (by linarith)

theorem unpack_of_not_lt_greatestBelowOne (hzero : 0 < c) (hone : c < 1) (h : ¬ c < greatestBelowOne) :
    c.toModel.unpack = greatestBelowOne.toModel.unpack := by
  obtain ⟨m, e, hpos, hunpack, hbelow⟩ := exists_unpack_of_lt_one hzero hone
  obtain ⟨v, hv, -⟩ := exists_represents_of_lt_one hzero hone
  have hcanonical : Canonical c.toModel.unpack := canonical_unpack hv
  rw [hunpack, Canonical, targetExponent_eq] at hcanonical
  rw [totalExponent] at hbelow
  rw [lt_iff_unpack, hunpack, unpack_greatestBelowOne] at h
  have hnotLess : ¬ (e < -53 ∨ e = -53 ∧ m < 2 ^ 53 - 1) := by
    simpa [UnpackedFloat.compare, Ordering.then_eq_lt, compare_lt_iff_lt, compare_eq_iff_eq] using h
  have hbits : m < 2 ^ 53 := (Nat.log2_lt hpos.ne').1 (by omega)
  obtain ⟨rfl, rfl⟩ : m = 2 ^ 53 - 1 ∧ e = -53 := by omega
  exact hunpack

/-- The greatest number below one is the only one for which the point half way to one is rounded up to one. -/
theorem level_lt_one_iff (hzero : 0 < c) (hone : c < 1) : (1 + c) / 2 < 1 ↔ c < greatestBelowOne := by
  refine ⟨fun h => ?_, level_lt_one hzero hone⟩
  by_contra hnot
  have hunpack := unpack_of_not_lt_greatestBelowOne hzero hone hnot
  have hlevel : (1 + c) / 2 = (1 + greatestBelowOne) / 2 :=
    congrArg (fun u => Float.ofModel (.pack (UnpackedFloat.add Format.binary64 (1 : Float).toModel.unpack u)) / 2)
      hunpack
  rw [hlevel] at h
  exact absurd h (by decide +kernel)

end Halfway

end UwbRanging
