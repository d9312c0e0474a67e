import UwbRanging.Evaluation.ParameterReport
import UwbRanging.Proofs.SortedMap

/-!
The groups of a series: each parameter that occurs has one, and it holds the distances measured under the parameter.
-/

namespace UwbRanging

variable {α : Type}

/-- The distances measured under a parameter, in their order. -/
def distancesUnder (series : List (Measurement α)) (p : UInt32) : List α :=
  (series.filter (·.parameter = p)).map Measurement.distance

theorem groupByParameter_concat (series : List (Measurement α)) (m : Measurement α) :
    groupByParameter (series ++ [m]) =
      (groupByParameter series).upsert m.parameter fun ds => ds.getD [] ++ [m.distance] := by
  rw [groupByParameter, groupByParameter, List.foldl_append]
  rfl

theorem distancesUnder_eq_nil {series : List (Measurement α)} {p : UInt32}
    (h : p ∉ series.map Measurement.parameter) : distancesUnder series p = [] := by
  have hnone : series.filter (·.parameter = p) = [] := by
    refine List.filter_eq_nil_iff.2 fun m hm hp => h ?_
    exact List.mem_map.2 ⟨m, hm, of_decide_eq_true hp⟩
  rw [distancesUnder, hnone, List.map_nil]

theorem get?_groupByParameter (series : List (Measurement α)) (p : UInt32) :
    (groupByParameter series).get? p =
      if p ∈ series.map Measurement.parameter then some (distancesUnder series p) else none := by
  induction series using List.reverseRecOn with
  | nil => rfl
  | append_singleton series m ih =>
      rw [groupByParameter_concat, SortedMap.get?_upsert]
      by_cases hp : p = m.parameter
      · have hlast : distancesUnder (series ++ [m]) p = distancesUnder series p ++ [m.distance] := by
          simp [distancesUnder, hp]
        have hoccurs : p ∈ (series ++ [m]).map Measurement.parameter := by simp [hp]
        rw [if_pos hp, ← hp, ih, hlast, if_pos hoccurs]
        by_cases hmem : p ∈ series.map Measurement.parameter
        · rw [if_pos hmem, Option.getD_some]
        · rw [if_neg hmem, Option.getD_none, distancesUnder_eq_nil hmem]
      · have hlast : distancesUnder (series ++ [m]) p = distancesUnder series p := by
          simp [distancesUnder, Ne.symm hp]
        rw [if_neg hp, ih, hlast]
        simp [hp]

theorem mem_keys_groupByParameter_iff {series : List (Measurement α)} {p : UInt32} :
    p ∈ (groupByParameter series).keys ↔ ∃ m ∈ series, m.parameter = p := by
  rw [← List.mem_map, SortedMap.mem_keys_iff, get?_groupByParameter]
  split <;> simp_all

/-- Together the groups hold the distances of the series. -/
theorem flatten_groups_perm (series : List (Measurement α)) :
    (groupByParameter series).values.flatten.Perm (series.map Measurement.distance) := by
  induction series using List.reverseRecOn with
  | nil => exact .refl _
  | append_singleton series m ih =>
      rw [groupByParameter_concat, List.map_append]
      exact ((SortedMap.flatten_values_upsert_perm _ _ _).trans (ih.cons _)).trans (List.perm_append_singleton _ _).symm

theorem of_mem_group {series : List (Measurement α)} {d : UInt32 × List α}
    (h : d ∈ (groupByParameter series).entries) :
    d.1 ∈ series.map Measurement.parameter ∧ d.2 = distancesUnder series d.1 := by
  have hgroup := SortedMap.get?_eq_some_iff.2 h
  rw [get?_groupByParameter] at hgroup
  split at hgroup
  case isTrue hoccurs => exact ⟨hoccurs, (Option.some.inj hgroup).symm⟩
  case isFalse => cases hgroup

theorem distances_of_mem_group {series : List (Measurement α)} {d : UInt32 × List α}
    (h : d ∈ (groupByParameter series).entries) {x : α} (hx : x ∈ d.2) : ∃ m ∈ series, m.distance = x := by
  rw [(of_mem_group h).2] at hx
  obtain ⟨m, hm, rfl⟩ := List.mem_map.1 hx
  exact ⟨m, List.mem_of_mem_filter hm, rfl⟩

/-- No group is empty. -/
theorem ne_nil_of_mem_group {series : List (Measurement α)} {d : UInt32 × List α}
    (h : d ∈ (groupByParameter series).entries) : d.2 ≠ [] := by
  obtain ⟨hoccurs, hgroup⟩ := of_mem_group h
  obtain ⟨m, hm, hparameter⟩ := List.mem_map.1 hoccurs
  have hmem : m ∈ series.filter (·.parameter = d.1) := List.mem_filter.2 ⟨hm, decide_eq_true hparameter⟩
  rw [hgroup]
  exact List.ne_nil_of_mem (List.mem_map_of_mem hmem)

theorem length_le_of_mem_group {series : List (Measurement α)} {d : UInt32 × List α}
    (h : d ∈ (groupByParameter series).entries) : d.2.length ≤ series.length := by
  rw [(of_mem_group h).2, distancesUnder, List.length_map]
  exact List.length_filter_le _ _

/-- The groups are summarised one by one. -/
theorem build_eq [Arith α] [Statistics.StudentQuantile α] (series : List (Measurement α)) (confidence : α) :
    ParameterReport.build series confidence =
      ((groupByParameter series).entries.mapM fun d => (Statistics.summarize d.2 confidence).map (d.1, ·)).map
        ParameterReport.ofSummaries := by
  have hrow (d : UInt32 × List α) : (Statistics.summarize d.2 confidence).map (d.1, ·) = do
      return (d.1, ← Statistics.summarize d.2 confidence) := by
    cases Statistics.summarize d.2 confidence <;> rfl
  simp only [hrow]
  unfold ParameterReport.build
  cases (groupByParameter series).entries.mapM fun d => do return (d.1, ← Statistics.summarize d.2 confidence) <;> rfl

end UwbRanging
