import UwbRanging.Proofs.Float.Order
import UwbRanging.SavedText.File

/-!
What makes settings valid, told by the numbers that they stand for: neither an infinity nor what is not a number stands
for one. Only the threshold may be infinite.
-/

namespace UwbRanging

open Float.Model (UnpackedFloat)
open Float.Model.UnpackedFloat
open Rounding

section Numbers

variable {x : Float}

theorem represents_zero : Represents 0 0 := by
  have hzero : (0 : Float).toModel.unpack = .zero .positive := unpack_zero
  rw [Represents, hzero]
  rfl

/-- Above zero is what stands for a number above zero, and the positive infinity. -/
theorem zero_lt_iff : 0 < x ↔ (∃ v, Represents x v ∧ 0 < v) ∨ x.toModel.unpack = .infinity .positive := by
  constructor
  · intro h
    refine (zero_lt_iff_unpack.1 h).imp_left ?_
    rintro ⟨m, e, hpos, hunpack⟩
    refine ⟨m * 2 ^ e, ?_, by positivity⟩
    rw [Represents, hunpack]
    rfl
  · rintro (⟨v, hv, hpos⟩ | hinfinite)
    · exact (represents_zero.lt_iff hv).2 hpos
    · exact zero_lt_iff_unpack.2 (.inr hinfinite)

theorem isFinite_iff_represents : Arith.isFinite x = true ↔ ∃ v, Represents x v := by
  change x.toModel.unpack.isFinite = true ↔ ∃ v, Stands x.toModel.unpack v
  cases x.toModel.unpack with
  | notANumber | infinity => exact iff_of_false Bool.false_ne_true fun ⟨_, h⟩ => False.elim h
  | zero | finite => exact iff_of_true rfl ⟨_, rfl⟩

theorem eq_zero_of_represents (h : Represents x 0) : Arith.eq x Arith.zero = true := by
  change UnpackedFloat.beq x.toModel.unpack (Float.ofNat 0).toModel.unpack = true
  rw [unpack_zero]
  obtain ⟨sign, hunpack, -⟩ | ⟨sign, m, e, hm, -, hzero⟩ := Stands.zero_or_finite h
  · rw [hunpack]
    cases sign <;> rfl
  · have hsize : (0 : ℚ) < m * 2 ^ e := by positivity
    have habs := abs_signed sign (m * 2 ^ e)
    rw [← hzero, abs_zero, abs_of_pos hsize] at habs
    exact absurd habs hsize.ne

theorem isProbability_iff_represents : Arith.isProbability x = true ↔ ∃ p, Represents x p ∧ 0 < p ∧ p < 1 := by
  rw [isProbability_iff]
  constructor
  · exact fun ⟨hzero, hone⟩ => exists_represents_of_lt_one hzero hone
  · exact fun ⟨p, hp, hzero, hone⟩ => ⟨zero_lt_iff.2 (.inl ⟨p, hp, hzero⟩), (hp.lt_iff represents_one).2 hone⟩

end Numbers

namespace EvaluationConfig

variable {c : EvaluationConfig Float}

/-- The value of a field lies in its domain. -/
def InDomain (c : EvaluationConfig Float) : ConfigField → Prop
  | .threshold => (∃ v, Represents c.threshold v ∧ 0 < v) ∨ c.threshold.toModel.unpack = .infinity .positive
  | .confidence => ∃ p, Represents c.confidence p ∧ 0 < p ∧ p < 1
  | .rangeScale => ∃ v, Represents c.rangeScale v ∧ v ≠ 0
  | .window => 1 ≤ c.window
  | .parameterStep => ∀ step ∈ c.parameterStep, ∃ v, Represents step v ∧ 0 < v

/-- All fields that have a domain, in the order in which they are looked at. -/
def checkedFields : List ConfigField :=
  [.threshold, .confidence, .rangeScale, .window, .parameterStep]

theorem isValid_iff_inDomain (field : ConfigField) : c.isValid field = true ↔ c.InDomain field := by
  cases field with
  | threshold => exact decide_eq_true_iff.trans zero_lt_iff
  | confidence => exact isProbability_iff_represents
  | rangeScale =>
      rw [isValid, Bool.and_eq_true, Bool.not_eq_true', isFinite_iff_represents]
      constructor
      · rintro ⟨⟨v, hv⟩, hne⟩
        refine ⟨v, hv, ?_⟩
        rintro rfl
        rw [eq_zero_of_represents hv] at hne
        cases hne
      · rintro ⟨v, hv, hne⟩
        exact ⟨⟨v, hv⟩, hv.eq_zero hne⟩
  | window => exact bne_iff_ne.trans Nat.one_le_iff_ne_zero.symm
  | parameterStep =>
      rw [isValid, InDomain]
      cases c.parameterStep with
      | none => exact iff_of_true rfl (by rintro step ⟨⟩)
      | some step =>
          simp only [Bool.and_eq_true, isFinite_iff_represents, Option.mem_some_iff, forall_eq']
          have hlt {v : ℚ} (hv : Represents step v) : Arith.lt Arith.zero step = true ↔ 0 < v :=
            decide_eq_true_iff.trans (represents_zero.lt_iff hv)
          constructor
          · rintro ⟨⟨v, hv⟩, hpos⟩
            exact ⟨v, hv, (hlt hv).1 hpos⟩
          · rintro ⟨v, hv, hpos⟩
            exact ⟨⟨v, hv⟩, (hlt hv).2 hpos⟩

theorem firstInvalid?_eq_none_iff : c.firstInvalid? = none ↔ ∀ field, c.InDomain field := by
  simp only [firstInvalid?, List.find?_eq_none, Bool.not_eq_true', Bool.not_eq_false, isValid_iff_inDomain]
  refine ⟨fun h field => h field ?_, fun h field _ => h field⟩
  cases field <;> decide

theorem firstInvalid?_eq_some_iff {field : ConfigField} : c.firstInvalid? = some field ↔
    ∃ before after, checkedFields = before ++ field :: after ∧ (∀ earlier ∈ before, c.InDomain earlier) ∧
      ¬ c.InDomain field := by
  rw [firstInvalid?, List.find?_eq_some_iff_append]
  simp only [Bool.not_eq_true', Bool.not_not, isValid_iff_inDomain, Bool.eq_false_iff, ne_eq]
  constructor
  · rintro ⟨hfield, before, after, heq, hbefore⟩
    exact ⟨before, after, heq, hbefore, hfield⟩
  · rintro ⟨before, after, heq, hbefore, hfield⟩
    exact ⟨hfield, before, after, heq, hbefore⟩

end EvaluationConfig

end UwbRanging
