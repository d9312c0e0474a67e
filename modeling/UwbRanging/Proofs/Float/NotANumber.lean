import UwbRanging.Proofs.Float.Order

/-!
What is not a number is neither less nor greater than anything, and its distance from anything is no number either. All
else equals itself, and stays a number when it is multiplied by a positive one that is finite.
-/

namespace UwbRanging

open Float.Model (Format UnpackedFloat)
open Float.Model.UnpackedFloat
open Rounding

variable {x y : Float}

theorem isNaN_iff_unpack : x.isNaN = true ↔ x.toModel.unpack = .notANumber := by
  change x.toModel.unpack.isNaN = true ↔ _
  cases x.toModel.unpack <;> simp [UnpackedFloat.isNaN]

theorem lt_left_of_isNaN (h : x.isNaN = true) (y : Float) : Arith.lt x y = false := by
  refine decide_eq_false fun hlt => ?_
  rw [lt_iff_unpack, isNaN_iff_unpack.1 h] at hlt
  cases hlt

theorem lt_right_of_isNaN (h : x.isNaN = true) (y : Float) : Arith.lt y x = false := by
  refine decide_eq_false fun hlt => ?_
  rw [lt_iff_unpack, isNaN_iff_unpack.1 h] at hlt
  cases hy : y.toModel.unpack <;> rw [hy] at hlt <;> cases hlt

theorem isNaN_sub_left (h : x.isNaN = true) (y : Float) : (x - y).isNaN = true := by
  rw [isNaN_iff_unpack]
  change unpack Format.binary64 (pack Format.binary64 (UnpackedFloat.sub Format.binary64 _ _)) = _
  rw [isNaN_iff_unpack.1 h, UnpackedFloat.sub]
  rfl

theorem isNaN_sub_right (h : x.isNaN = true) (y : Float) : (y - x).isNaN = true := by
  rw [isNaN_iff_unpack]
  change unpack Format.binary64 (pack Format.binary64 (UnpackedFloat.sub Format.binary64 _ _)) = _
  have hsub (u : UnpackedFloat) : UnpackedFloat.sub Format.binary64 u .notANumber = .notANumber := by
    cases u <;> rw [UnpackedFloat.sub] <;> simp
  rw [isNaN_iff_unpack.1 h, hsub]
  rfl

theorem isNaN_abs (h : x.isNaN = true) : x.abs.isNaN = true := by
  rw [isNaN_iff_unpack]
  change unpack Format.binary64 (pack Format.binary64 (UnpackedFloat.abs _)) = _
  rw [isNaN_iff_unpack.1 h]
  rfl

theorem unpack_packComponents_ne_notANumber {sign : Sign} {field : BitVec 11} {mantissa : BitVec 52}
    (h : field = -1#11 → mantissa = 0#52) :
    unpack Format.binary64 (packComponents Format.binary64 sign field mantissa) ≠ .notANumber := by
  unfold unpack
  simp only [unpackExponent_packComponents, unpackMantissa_packComponents]
  split
  case isTrue hones =>
    rw [if_pos (h hones)]
    nofun
  case isFalse =>
    split
    · split <;> nofun
    · nofun

/-- Only what is no number is packed as such. -/
theorem unpack_pack_ne_notANumber {u : UnpackedFloat} (h : u ≠ .notANumber) :
    unpack Format.binary64 (pack Format.binary64 u) ≠ .notANumber := by
  cases u with
  | notANumber => exact absurd rfl h
  | infinity sign => exact unpack_packComponents_ne_notANumber fun _ => rfl
  | zero sign => exact unpack_packComponents_ne_notANumber fun _ => rfl
  | finite sign m e hpos =>
      unfold pack
      extract_lets actual biased
      split
      · exact unpack_packComponents_ne_notANumber fun _ => rfl
      case isFalse hlarge =>
        split
        · refine unpack_packComponents_ne_notANumber fun hones => ?_
          have hnat := congrArg BitVec.toNat hones
          change biased % 2 ^ 11 = 2047 at hnat
          change ¬ 2 ^ 11 ≤ biased + 1 at hlarge
          omega
        · exact unpack_packComponents_ne_notANumber nofun

/-- A number times a positive one that is finite is a number, be it infinite. -/
theorem isNaN_mul_eq_false (hx : x.isNaN = false) (hpos : 0 < y) (hfinite : y.isFinite = true) :
    (x * y).isNaN = false := by
  obtain ⟨n, f, hn, hy⟩ : ∃ n f hn, y.toModel.unpack = .finite .positive n f hn := by
    rcases zero_lt_iff_unpack.1 hpos with hy | hy
    · exact hy
    · change y.toModel.unpack.isFinite = true at hfinite
      rw [hy] at hfinite
      cases hfinite
  rw [← Bool.not_eq_true, isNaN_iff_unpack] at hx ⊢
  change unpack Format.binary64 (pack Format.binary64 (UnpackedFloat.mul Format.binary64 _ _)) ≠ _
  refine unpack_pack_ne_notANumber ?_
  rw [hy]
  cases hu : x.toModel.unpack with
  | notANumber => exact absurd hu hx
  | infinity sign => nofun
  | zero sign => nofun
  | finite sign m e hm =>
      dsimp only [UnpackedFloat.mul, roundWithAccuracy]
      split <;> nofun

theorem eq_self_of_not_isNaN (h : x.isNaN = false) : Arith.eq x x = true := by
  rw [← Bool.not_eq_true, isNaN_iff_unpack] at h
  change (x.toModel.unpack.compare x.toModel.unpack == some .eq) = true
  cases hu : x.toModel.unpack with
  | notANumber => exact absurd hu h
  | infinity sign => cases sign <;> rfl
  | zero sign => rfl
  | finite sign m e hm => cases sign <;> simp [UnpackedFloat.compare]

/-- Of two numbers one is less than the other, unless they are equal. -/
theorem lt_or_beq_or_lt_of_numbers (hx : x.isNaN = false) (hy : y.isNaN = false) :
    x < y ∨ (x == y) = true ∨ y < x := by
  rw [← Bool.not_eq_true, isNaN_iff_unpack] at hx hy
  have heq : (x == y) = true ↔ x.toModel.unpack.compare y.toModel.unpack = some .eq := by
    change (x.toModel.unpack.compare y.toModel.unpack == some .eq) = true ↔ _
    exact beq_iff_eq
  rw [lt_iff_unpack, lt_iff_unpack, heq]
  exact compare_total hx hy

theorem le_or_lt_of_numbers (hx : x.isNaN = false) (hy : y.isNaN = false) : x ≤ y ∨ y < x := by
  rw [← Bool.not_eq_true, isNaN_iff_unpack] at hx hy
  have hle : x ≤ y ↔ (x.toModel.unpack.compare y.toModel.unpack).any (·.isLE) = true := decide_eq_true_iff
  rw [hle, lt_iff_unpack]
  rcases compare_total hx hy with h | h | h
  · exact .inl (by rw [h]; rfl)
  · exact .inl (by rw [h]; rfl)
  · exact .inr h

end UwbRanging
