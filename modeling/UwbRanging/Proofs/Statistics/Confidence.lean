import UwbRanging.Config
import UwbRanging.Proofs.Float.Order
import UwbRanging.Proofs.Statistics.Summary

/-!
At which levels of confidence a series has a summary. A single value has one at every level. For more values the
quantile is asked for the point half way from the level to one, which for the greatest level of all is rounded to one,
and at one degree of freedom less than there are values, of which only the last 32 bits arrive.
-/

namespace UwbRanging.Statistics

section Quantile

variable (α : Type) [Arith α] [StudentQuantile α]

/-- A quantile that is there for every probability and every positive number of degrees of freedom, and reports what
else it is asked for. -/
structure StudentQuantile.Checked : Prop where
  total : StudentQuantile.Total α
  invalidProbability (p : α) (dof : UInt32) : Arith.isProbability p = false →
    StudentQuantile.quantile p dof = .error .invalidProbability
  noFreedom (p : α) : Arith.isProbability p = true → StudentQuantile.quantile p 0 = .error .emptyInput

end Quantile

theorem studentQuantile_checked : StudentQuantile.Checked Float where
  total := studentQuantile_total
  invalidProbability p dof hp := by
    change studentQuantile p dof = _
    rw [studentQuantile, hp]
    rfl
  noFreedom p hp := by
    change studentQuantile p 0 = _
    rw [studentQuantile, hp]
    rfl

section Asked

variable {α : Type} [Arith α] [StudentQuantile α] {values : List α} {confidence : α}

/-- The summary of `n` values with the given mean and deviation, for the quantile `t`. -/
def summaryFor (n : Nat) (mean stdDev t : α) : Summary α :=
  let half := t * stdDev / Arith.sqrt (Arith.ofNat n)
  ⟨n, mean, stdDev, mean - half, mean + half⟩

/-- The quantile is asked once, and not at all for a single value. -/
theorem exists_summarize_eq_quantile (hconfidence : Arith.isProbability confidence = true) (hvalues : values ≠ []) :
    ∃ m s, mean values = .ok m ∧ stdDev values = .ok s ∧
      (values.length = 1 → summarize values confidence = .ok ⟨1, m, s, m - Arith.zero, m + Arith.zero⟩) ∧
      (2 ≤ values.length → summarize values confidence =
        (StudentQuantile.quantile ((Arith.one + confidence) / Arith.ofNat 2) (UInt32.ofNat (values.length - 1))).map
          (summaryFor values.length m s)) := by
  obtain ⟨m, s, hm, hs, hsummarize⟩ := exists_summarize_eq hconfidence hvalues
  refine ⟨m, s, hm, hs, fun hsingle => ?_, fun hlong => ?_⟩
  · rw [hsummarize, hsingle, reachOf, if_pos (by decide)]
    rfl
  · rw [hsummarize, reachOf, if_neg (by omega)]
    cases StudentQuantile.quantile ((Arith.one + confidence) / Arith.ofNat 2) (UInt32.ofNat (values.length - 1)) <;> rfl

end Asked

section Levels

variable [StudentQuantile Float] {values : List Float} {c : Float}

/-- At a level between zero and one, a series that is not empty has a summary except in two cases: the level is the
greatest of all and there is more than one value, or the degrees of freedom vanish in 32 bits. What is asked is right
for the others, as long as the degrees of freedom fit. -/
theorem summarize_at_valid_level (hquantile : StudentQuantile.Checked Float) (hvalues : values ≠ []) (hzero : 0 < c)
    (hone : c < 1) :
    (∃ m s, mean values = .ok m ∧ stdDev values = .ok s ∧
      (values.length = 1 → summarize values c = .ok ⟨1, m, s, m - 0, m + 0⟩) ∧
      (2 ≤ values.length → summarize values c =
        (StudentQuantile.quantile ((1 + c) / 2) (UInt32.ofNat (values.length - 1))).map
          (summaryFor values.length m s))) ∧
    (0 < (1 + c) / 2 ∧ ((1 + c) / 2 < 1 ↔ c < greatestBelowOne)) ∧
    ((UInt32.ofNat (values.length - 1)).toNat = values.length - 1 ↔ values.length ≤ 2 ^ 32) ∧
    (values.length = 1 ∨ c < greatestBelowOne ∧ ¬ 2 ^ 32 ∣ values.length - 1 →
      ∃ summary, summarize values c = .ok summary) ∧
    (2 ≤ values.length → ¬ c < greatestBelowOne → summarize values c = .error .invalidProbability) ∧
    (2 ≤ values.length → c < greatestBelowOne → 2 ^ 32 ∣ values.length - 1 →
      summarize values c = .error .emptyInput) := by
  have hlevel := zero_lt_level hzero hone
  have hbelow := level_lt_one_iff hzero hone
  obtain ⟨m, s, hm, hs, hsingle, hasked⟩ := exists_summarize_eq_quantile (isProbability_iff.2 ⟨hzero, hone⟩) hvalues
  refine ⟨⟨m, s, hm, hs, hsingle, hasked⟩, ⟨hlevel, hbelow⟩, toNat_degreesOfFreedom_iff _, ?_, ?_, ?_⟩
  · rintro (hlength | ⟨hless, hdof⟩)
    · exact ⟨_, hsingle hlength⟩
    · rcases Nat.lt_or_ge values.length 2 with hshort | hlong
      · have hpos := List.length_pos_iff.2 hvalues
        exact ⟨_, hsingle (by omega)⟩
      · obtain ⟨t, ht⟩ := hquantile.total _ _ (isProbability_iff.2 ⟨hlevel, hbelow.2 hless⟩)
          (mt (degreesOfFreedom_eq_zero_iff _).1 hdof)
        exact ⟨_, (hasked hlong).trans (congrArg (Except.map _) ht)⟩
  · intro hlong hgreatest
    have hinvalid : Arith.isProbability ((1 + c) / 2) = false :=
      Bool.eq_false_iff.2 fun hlevel => hgreatest (hbelow.1 (isProbability_iff.1 hlevel).2)
    exact (hasked hlong).trans (congrArg (Except.map _) (hquantile.invalidProbability _ _ hinvalid))
  · intro hlong hless hdof
    have hnone := hquantile.noFreedom _ (isProbability_iff.2 ⟨hlevel, hbelow.2 hless⟩)
    rw [← (degreesOfFreedom_eq_zero_iff _).2 hdof] at hnone
    exact (hasked hlong).trans (congrArg (Except.map _) hnone)

end Levels

/-- Three values have a summary at nineteen twentieths. -/
theorem summarize_at_valid_level_three_values : ∃ summary, summarize [1, 2, 4] (19 / 20 : Float) = .ok summary := by
  have hvalues : ([1, 2, 4] : List Float) ≠ [] := List.cons_ne_nil _ _
  have hzero : 0 < (19 / 20 : Float) := by decide +kernel
  have hone : (19 / 20 : Float) < 1 := by decide +kernel
  obtain ⟨-, -, -, hsummary, -⟩ := summarize_at_valid_level studentQuantile_checked hvalues hzero hone
  exact hsummary (.inr ⟨by decide +kernel, by decide⟩)

/-- The same values have none at the greatest level, which valid settings may have. -/
theorem summarize_at_greatest_level :
    (0 < greatestBelowOne ∧ greatestBelowOne < 1) ∧
    { EvaluationConfig.default with confidence := greatestBelowOne }.firstInvalid? = none ∧
    summarize [1, 2, 4] greatestBelowOne = .error .invalidProbability := by
  have hconfidence : 0 < greatestBelowOne ∧ greatestBelowOne < 1 := by decide +kernel
  have hlevel : Arith.isProbability ((1 + greatestBelowOne) / 2) = false := by decide +kernel
  obtain ⟨m, s, -, -, -, hasked⟩ := exists_summarize_eq_quantile (isProbability_iff.2 hconfidence)
    (List.cons_ne_nil 1 [2, 4])
  have hinvalid := studentQuantile_checked.invalidProbability _ (UInt32.ofNat 2) hlevel
  exact ⟨hconfidence, by decide +kernel, (hasked (by decide)).trans (congrArg (Except.map _) hinvalid)⟩

end UwbRanging.Statistics
