import Mathlib.Algebra.Ring.Nat
import UwbRanging.Proofs.Fallible
import UwbRanging.Statistics.Summary

/-!
A summary step by step: the confidence is checked, then mean, deviation and interval are computed in this order.
-/

namespace UwbRanging.Statistics

variable {α : Type} [Arith α] [StudentQuantile α]

/-- How far the interval of `n` values with the given deviation reaches to both sides of their mean. -/
def reachOf (n : Nat) (stdDev confidence : α) : Except RangingError α :=
  if n < 2 then .ok Arith.zero
  else (StudentQuantile.quantile ((Arith.one + confidence) / Arith.ofNat 2) (UInt32.ofNat (n - 1))).map
    fun t => t * stdDev / Arith.sqrt (Arith.ofNat n)

theorem summarize_of_isProbability {confidence : α} (h : Arith.isProbability confidence = true) (values : List α) :
    summarize values confidence = do
      let m ← mean values
      let s ← stdDev values
      let half ← reachOf values.length s confidence
      return ⟨values.length, m, s, m - half, m + half⟩ := by
  unfold summarize reachOf
  rw [h]
  simp only [Bool.not_true, Bool.false_eq_true, if_false]
  congr 1
  funext m
  congr 1
  funext s
  split
  · rfl
  · cases StudentQuantile.quantile ((Arith.one + confidence) / Arith.ofNat 2) (UInt32.ofNat (values.length - 1)) <;> rfl

theorem summarize_of_not_isProbability {confidence : α} (h : Arith.isProbability confidence = false)
    (values : List α) : summarize values confidence = .error .invalidConfidence := by
  unfold summarize
  rw [h]
  rfl

/-- A summary is made of mean, deviation and reach. -/
theorem exists_of_summarize {values : List α} {confidence : α} {summary : Summary α}
    (h : summarize values confidence = .ok summary) :
    ∃ m s half, mean values = .ok m ∧ stdDev values = .ok s ∧ reachOf values.length s confidence = .ok half ∧
      summary = ⟨values.length, m, s, m - half, m + half⟩ := by
  cases hc : Arith.isProbability confidence with
  | false => rw [summarize_of_not_isProbability hc] at h; cases h
  | true =>
      rw [summarize_of_isProbability hc] at h
      obtain ⟨m, hm, h⟩ := bind_eq_ok_iff.1 h
      obtain ⟨s, hs, h⟩ := bind_eq_ok_iff.1 h
      obtain ⟨half, hhalf, h⟩ := bind_eq_ok_iff.1 h
      cases h
      exact ⟨m, s, half, hm, hs, hhalf, rfl⟩

theorem count_of_summarize {values : List α} {confidence : α} {summary : Summary α}
    (h : summarize values confidence = .ok summary) : summary.count = values.length := by
  obtain ⟨m, s, half, -, -, -, rfl⟩ := exists_of_summarize h
  rfl

theorem mean_of_summarize {values : List α} {confidence : α} {summary : Summary α}
    (h : summarize values confidence = .ok summary) : mean values = .ok summary.mean := by
  obtain ⟨m, s, half, hm, -, -, rfl⟩ := exists_of_summarize h
  exact hm

omit [StudentQuantile α] in
theorem length_pos_of_mean {values : List α} {m : α} (h : mean values = .ok m) : 0 < values.length := by
  cases values with
  | nil => cases h
  | cons v values => exact Nat.succ_pos _

omit [StudentQuantile α] in
theorem sum_div_count_of_mean {values : List α} {m : α} (h : mean values = .ok m) :
    Arith.sum values / Arith.ofNat values.length = m := by
  cases values with
  | nil => cases h
  | cons v values => exact Except.ok.inj h

/-- There is a quantile for every probability and every positive number of degrees of freedom. -/
def StudentQuantile.Total (α : Type) [Arith α] [StudentQuantile α] : Prop :=
  ∀ (p : α) (dof : UInt32), Arith.isProbability p = true → dof ≠ 0 → ∃ t, StudentQuantile.quantile p dof = .ok t

omit [Arith α] [StudentQuantile α] in
theorem studentQuantile_total : StudentQuantile.Total Float := by
  intro p dof hp hdof
  change ∃ t, studentQuantile p dof = .ok t
  rw [studentQuantile, hp, if_neg hdof]
  exact ⟨_, rfl⟩

section Success

variable {values : List α}

omit [StudentQuantile α] in
theorem exists_mean (h : values ≠ []) : ∃ m, mean values = .ok m := by
  have hempty : values.isEmpty = false := List.isEmpty_eq_false_iff.2 h
  rw [mean, hempty]
  exact ⟨_, rfl⟩

omit [StudentQuantile α] in
theorem exists_stdDev (h : values ≠ []) : ∃ s, stdDev values = .ok s := by
  obtain ⟨m, hm⟩ := exists_mean h
  by_cases hshort : values.length < 2
  · exact ⟨Arith.sqrt Arith.zero, by simp only [stdDev, variance, hm, hshort, if_true]; rfl⟩
  · exact ⟨_, by simp only [stdDev, variance, hm, hshort, if_false]; rfl⟩

theorem degreesOfFreedom_eq_zero_iff (n : Nat) : UInt32.ofNat (n - 1) = 0 ↔ 2 ^ 32 ∣ n - 1 := by
  rw [← UInt32.toNat_inj, UInt32.toNat_ofNat', UInt32.toNat_zero, Nat.dvd_iff_mod_eq_zero]

theorem toNat_degreesOfFreedom_iff (n : Nat) : (UInt32.ofNat (n - 1)).toNat = n - 1 ↔ n ≤ 2 ^ 32 := by
  rw [UInt32.toNat_ofNat', Nat.mod_eq_iff_lt (by decide)]
  omega

theorem exists_reachOf (htotal : StudentQuantile.Total α) {confidence : α} {n : Nat}
    (h : 2 ≤ n → Arith.isProbability ((Arith.one + confidence) / Arith.ofNat 2) = true ∧ ¬ 2 ^ 32 ∣ n - 1) (s : α) :
    ∃ half, reachOf n s confidence = .ok half := by
  unfold reachOf
  by_cases hshort : n < 2
  · rw [if_pos hshort]
    exact ⟨_, rfl⟩
  · obtain ⟨hlevel, hdof⟩ := h (not_lt.1 hshort)
    obtain ⟨t, ht⟩ := htotal _ _ hlevel (mt (degreesOfFreedom_eq_zero_iff n).1 hdof)
    rw [if_neg hshort, ht]
    exact ⟨_, rfl⟩

theorem exists_summarize_eq {confidence : α} (hconfidence : Arith.isProbability confidence = true)
    (hvalues : values ≠ []) : ∃ m s, mean values = .ok m ∧ stdDev values = .ok s ∧
      summarize values confidence =
        (reachOf values.length s confidence).map fun half => ⟨values.length, m, s, m - half, m + half⟩ := by
  obtain ⟨m, hm⟩ := exists_mean hvalues
  obtain ⟨s, hs⟩ := exists_stdDev hvalues
  refine ⟨m, s, hm, hs, ?_⟩
  rw [summarize_of_isProbability hconfidence, hm, hs]
  change (reachOf values.length s confidence >>= fun half => _) = _
  cases reachOf values.length s confidence <;> rfl

/-- At a valid level a series has a summary, unless it is empty or has more values than a quantile takes. -/
theorem exists_summarize (htotal : StudentQuantile.Total α) {confidence : α}
    (hconfidence : Arith.isProbability confidence = true)
    (hlevel : Arith.isProbability ((Arith.one + confidence) / Arith.ofNat 2) = true) (hvalues : values ≠ [])
    (hlength : values.length ≤ 2 ^ 32) : ∃ summary, summarize values confidence = .ok summary := by
  obtain ⟨m, s, -, -, hsummarize⟩ := exists_summarize_eq hconfidence hvalues
  have hdof (hlong : 2 ≤ values.length) : ¬ 2 ^ 32 ∣ values.length - 1 :=
    Nat.not_dvd_of_pos_of_lt (by omega) (by omega)
  obtain ⟨half, hhalf⟩ := exists_reachOf htotal (fun hlong => ⟨hlevel, hdof hlong⟩) s
  rw [hsummarize, hhalf]
  exact ⟨_, rfl⟩

end Success

end UwbRanging.Statistics
