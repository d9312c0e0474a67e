import UwbRanging.Arith
import UwbRanging.Proofs.Decimal.Binary64
import UwbRanging.Proofs.Float.Operations

/-!
Bounds that arithmetic keeps. A formula of a few operations on clock counts does not overflow, and a sum of counts is
zero only if all of them are.
-/

namespace UwbRanging

open Float.Model (Format totalExponent UnpackedFloat)
open Float.Model.UnpackedFloat
open Rounding

/-- A finite number below a power of two, of either sign. -/
def Below (k : ℤ) (x : Float) : Prop :=
  Within k x.toModel.unpack

instance (k : ℤ) (x : Float) : Decidable (Below k x) :=
  inferInstanceAs (Decidable (Within k x.toModel.unpack))

/-- A number of at least one and below a power of two. -/
def Positive (k : ℤ) (x : Float) : Prop :=
  Full k x.toModel.unpack

/-- A count as a number: zero, or at least one. -/
def Count (k : ℤ) (x : Float) : Prop :=
  x.toModel.unpack = .zero .positive ∨ Positive k x

section Arithmetic

variable {k l : ℤ} {x y : Float}

theorem Below.mono (h : Below k x) (hkl : k ≤ l) : Below l x :=
  Within.mono h hkl

theorem Positive.below (h : Positive k x) : Below k x :=
  Full.within h

theorem Count.below (h : Count k x) : Below k x := by
  rcases h with hzero | hpos
  · rw [Below, hzero]
    trivial
  · exact hpos.below

theorem Below.add (hx : Below k x) (hy : Below k y) (hlow : 0 ≤ k) (hhigh : k ≤ 970) : Below (k + 2) (x + y) :=
  within_unpack_pack (by omega) (by omega) (within_add_sub (by omega) hx hy).1

theorem Below.sub (hx : Below k x) (hy : Below k y) (hlow : 0 ≤ k) (hhigh : k ≤ 970) : Below (k + 2) (x - y) :=
  within_unpack_pack (by omega) (by omega) (within_add_sub (by omega) hx hy).2

theorem Below.mul (hx : Below k x) (hy : Below l y) (hlow : 0 ≤ k + l) (hhigh : k + l ≤ 971) :
    Below (k + l + 1) (x * y) :=
  within_unpack_pack (by omega) (by omega) (within_mul (by omega) hx hy)

theorem Below.div (hx : Below k x) (hy : Positive l y) (hlow : 0 ≤ k) (hhigh : k ≤ 971) : Below (k + 1) (x / y) := by
  obtain ⟨m, e, hpos, hunpack, -, hone, -⟩ := hy
  have hdiv := within_div (by omega) hx .positive hpos hone
  rw [← hunpack] at hdiv
  exact Within.mono (within_unpack_pack (by omega) (by omega) hdiv) (by omega)

end Arithmetic

section Counts

variable {k : ℤ} {x y : Float}

theorem Positive.mono {l : ℤ} (h : Positive k x) (hkl : k ≤ l) : Positive l x :=
  Full.mono h hkl

/-- Numbers with all their bits are not changed by packing. -/
theorem positive_of_full {u : UnpackedFloat}
    (hunpack : x.toModel.unpack = unpack Format.binary64 (pack Format.binary64 u)) (hk : k ≤ 972) (h : Full k u) :
    Positive k x := by
  rw [Positive, hunpack, unpack_pack_of_full hk h]
  exact h

theorem Positive.add (hx : Positive k x) (hy : Positive k y) (hk : k ≤ 970) : Positive (k + 2) (x + y) := by
  obtain ⟨m, e, hpos, hunpack, -, -, hhigh⟩ := hy
  have hfull := full_add hx hpos hhigh
  rw [← hunpack] at hfull
  exact positive_of_full rfl (by omega) hfull

theorem Positive.add_count (hx : Positive k x) (hy : Count k y) (hk : k ≤ 970) : Positive (k + 2) (x + y) := by
  rcases hy with hzero | hy
  · have hsum : UnpackedFloat.add Format.binary64 x.toModel.unpack y.toModel.unpack = x.toModel.unpack := by
      obtain ⟨m, e, hpos, hunpack, -⟩ := hx
      rw [hzero, hunpack]
      rfl
    exact positive_of_full rfl (by omega) (hsum.symm ▸ Full.mono hx (by omega))
  · exact hx.add hy hk

theorem Count.add_positive (hx : Count k x) (hy : Positive k y) (hk : k ≤ 970) : Positive (k + 2) (x + y) := by
  rcases hx with hzero | hx
  · have hsum : UnpackedFloat.add Format.binary64 x.toModel.unpack y.toModel.unpack = y.toModel.unpack := by
      obtain ⟨m, e, hpos, hunpack, -⟩ := hy
      rw [hzero, hunpack]
      rfl
    exact positive_of_full rfl (by omega) (hsum.symm ▸ Full.mono hy (by omega))
  · exact hx.add hy hk

theorem unpack_zero : (Float.ofNat 0).toModel.unpack = .zero .positive := by
  rfl

theorem positive_ofNat {n : ℕ} (hn : 0 < n) (hlt : n < 2 ^ 53) : Positive 55 (Float.ofNat n) := by
  have hfast : Float.ofNat n = n.toUInt64.toFloat * Float.ofBits 0x3FF0000000000000 := dif_pos ⟨hlt, by decide⟩
  have hlog : n.log2 < 53 := (Nat.log2_lt hn.ne').2 hlt
  have hconverted : Positive 54 n.toUInt64.toFloat := by
    have hword : n.toUInt64.toNat = n := Nat.mod_eq_of_lt (by omega)
    refine positive_of_full rfl (by omega) ?_
    change Full 54 (UnpackedFloat.normalize Format.binary64 (n.toUInt64.toNat : ℤ) 0 .positive)
    rw [hword]
    apply full_normalize (k := 53) hn.ne' <;>
    · simp only [totalExponent]
      omega
  -- the literal one is multiplied with
  have hone : (Float.ofBits 0x3FF0000000000000).toModel.unpack = .finite .positive (2 ^ 52) (-52) (by decide) := by
    rfl
  obtain ⟨m, e, hpos, hunpack, hbits, hlow, hhigh⟩ := hconverted
  have hsame := totalExponent_mul_two_pow hpos.ne' 52 e
  rw [hfast]
  refine positive_of_full rfl (by omega) ?_
  rw [hunpack, hone]
  change Full 55 (roundWithAccuracy Format.binary64 .positive (m * 2 ^ 52) (e + -52) .exact)
  apply full_roundWithAccuracy (k := 54)
  · rw [log2_mul_two_pow hpos.ne']
    omega
  · exact hsame ▸ hlow
  · exact hsame ▸ hhigh

theorem count_ofNat {n : ℕ} (hlt : n < 2 ^ 53) : Count 55 (Float.ofNat n) := by
  rcases Nat.eq_zero_or_pos n with rfl | hn
  · exact Or.inl unpack_zero
  · exact Or.inr (positive_ofNat hn hlt)

theorem Positive.eq_zero (h : Positive k x) : Arith.eq x Arith.zero = false := by
  obtain ⟨m, e, hpos, hunpack, -⟩ := h
  change UnpackedFloat.beq x.toModel.unpack (Float.ofNat 0).toModel.unpack = false
  rw [hunpack, unpack_zero]
  rfl

end Counts

/-- Bounded numbers are printed in digits. -/
theorem Below.exists_ofFloat {k : ℤ} {x : Float} (h : Below k x) :
    ∃ negative m e, Binary64.ofFloat x = .finite negative m e := by
  have hbiased : x.toBits.toNat / 2 ^ 52 % 2048 ≠ 2047 := by
    intro hones
    have hexponent : @unpackExponent Format.binary64 x.toBits.toBitVec = -1#11 :=
      BitVec.eq_of_toNat_eq ((Binary64.toNat_unpackExponent x).trans hones)
    have hunpack : ¬ Within k (unpack Format.binary64 x.toBits.toBitVec) := by
      unfold unpack
      simp only [hexponent, if_true]
      split <;> exact id
    exact hunpack h
  unfold Binary64.ofFloat
  extract_lets bits negative biased fraction
  have hbiased' : ¬ biased = 2047 := hbiased
  rw [if_neg hbiased']
  split
  · exact ⟨_, _, _, rfl⟩
  · exact ⟨_, _, _, rfl⟩

end UwbRanging
