import Mathlib
import UwbRanging.Decimal.Reading

/-!
The parts of binary64 numbers: which mantissas and exponents there are, and that a number is told by its parts.
-/

namespace UwbRanging.Binary64

open Float.Model Float.Model.UnpackedFloat

theorem leadingOne_eq : leadingOne = 2 ^ 52 :=
  rfl

/-- What the mantissas and exponents of binary64 numbers satisfy. Only at the least exponent the leading bit may be
missing. -/
structure Canonical (mantissa : ℕ) (exponent : ℤ) : Prop where
  least : -1074 ≤ exponent
  greatest : exponent ≤ 971
  narrow : mantissa < 2 ^ 53
  leading : -1074 < exponent → 2 ^ 52 ≤ mantissa

/-- The bits of a number without its sign. -/
def magnitudeBits (mantissa : ℕ) (exponent : ℤ) : ℕ :=
  (exponent + 1074).toNat * 2 ^ 52 + mantissa

theorem signBit_eq (bits : ℕ) : signBit (decide (2 ^ 63 ≤ bits)) = if 2 ^ 63 ≤ bits then 2 ^ 63 else 0 := by
  by_cases h : 2 ^ 63 ≤ bits
  · rw [decide_eq_true h, if_pos h]
    rfl
  · rw [decide_eq_false h, if_neg h]
    rfl

theorem Canonical.of_ofFloat {x : Float} {negative : Bool} {m : ℕ} {e : ℤ} (h : ofFloat x = .finite negative m e) :
    Canonical m e ∧ x.toBits.toNat = signBit negative + magnitudeBits m e := by
  have hbits : x.toBits.toNat < 2 ^ 64 := x.toBits.toNat_lt
  have hsign : signBit true = 2 ^ 63 := rfl
  simp only [ofFloat, leadingOne_eq, hsign] at h
  generalize x.toBits.toNat = bits at hbits h ⊢
  split at h
  case isTrue => split at h <;> cases h
  case isFalse hbiased =>
    split at h
    case isTrue hzero =>
      cases h
      refine ⟨⟨by omega, by omega, by omega, by omega⟩, ?_⟩
      rw [signBit_eq, magnitudeBits]
      split <;> omega
    case isFalse hnonzero =>
      cases h
      refine ⟨⟨by omega, by omega, by omega, by omega⟩, ?_⟩
      rw [signBit_eq, magnitudeBits]
      split <;> omega

theorem toNat_unpackMantissa (x : Float) :
    (@unpackMantissa Format.binary64 x.toBits.toBitVec).toNat = x.toBits.toNat % 2 ^ 52 := by
  rw [unpackMantissa_def, BitVec.extractLsb'_toNat]
  rfl

theorem toNat_unpackExponent (x : Float) :
    (@unpackExponent Format.binary64 x.toBits.toBitVec).toNat = x.toBits.toNat / 2 ^ 52 % 2048 := by
  rw [unpackExponent_def, BitVec.extractLsb'_toNat, Nat.shiftRight_eq_div_pow]
  rfl

/-- There is one number only that is not a number. -/
theorem eq_nan {x : Float} (h : ofFloat x = .nan) : x = Decimal.nan := by
  have hvalid := x.toModel.valid.eq_packedNaN
  have hbits : x.toBits.toBitVec = packedNaN Format.binary64 := by
    simp only [ofFloat] at h
    split at h
    case isFalse => split at h <;> cases h
    case isTrue hbiased =>
      split at h
      · cases h
      · rename_i hfraction
        apply hvalid
        · exact BitVec.eq_of_toNat_eq ((toNat_unpackExponent x).trans hbiased)
        · intro hzero
          apply hfraction
          exact (toNat_unpackMantissa x).symm.trans (congrArg BitVec.toNat hzero)
  have hnan : x.toBits = 0x7ff8000000000000 := by
    apply UInt64.toBitVec_inj.1
    rw [hbits]
    decide
  rw [← Float.ofBits_toBits x, hnan]
  rfl

theorem eq_infinite {x : Float} {negative : Bool} (h : ofFloat x = .infinite negative) :
    x = Decimal.infinite negative := by
  have hbits : x.toBits.toNat < 2 ^ 64 := x.toBits.toNat_lt
  have hsign : signBit true = 2 ^ 63 := rfl
  have hinfinite : infiniteBits = 2047 * 2 ^ 52 := rfl
  have hsum : x.toBits.toNat = signBit negative + infiniteBits := by
    simp only [ofFloat, leadingOne_eq, hsign] at h
    rw [hinfinite]
    generalize x.toBits.toNat = bits at hbits h ⊢
    split at h
    case isFalse => split at h <;> cases h
    case isTrue hbiased =>
      split at h
      case isFalse => cases h
      case isTrue hfraction =>
        cases h
        rw [signBit_eq]
        split <;> omega
  rw [Decimal.infinite, ← hsum, UInt64.ofNat_toNat, Float.ofBits_toBits]

end UwbRanging.Binary64
