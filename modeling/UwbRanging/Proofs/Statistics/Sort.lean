import UwbRanging.Proofs.SortedMap
import UwbRanging.Statistics.Outlier

/-!
The median over a sort that may break off. Whatever becomes of the order, the sort keeps the values, so only an empty
series has no median; and the filters, which fail for no other reason, break off where the sort does.
-/

namespace UwbRanging.Statistics

variable {α : Type} [Arith α]

theorem insertDescending_perm (v : α) (ws : List α) : (insertDescending v ws).Perm (v :: ws) := by
  induction ws with
  | nil => exact .refl _
  | cons w ws ih =>
      rw [insertDescending]
      split
      · exact (ih.cons w).trans (.swap v w ws)
      · exact .refl _

theorem ascending_perm_self (values : List α) : (ascending values).Perm values := by
  refine (List.reverse_perm _).trans ?_
  induction values using List.reverseRecOn with
  | nil => exact .refl _
  | append_singleton values v ih =>
      rw [List.foldl_append, List.foldl_cons, List.foldl_nil]
      exact (insertDescending_perm v _).trans ((ih.cons v).trans (List.perm_append_singleton v values).symm)

theorem middleOf_eq_error_iff {sorted : List α} {interruption : Interruption} :
    middleOf sorted = .error interruption ↔ sorted = [] ∧ interruption = .failed .emptyInput := by
  have hempty : sorted.drop ((sorted.length - 1) / 2) = [] ↔ sorted = [] := by
    rw [← List.length_eq_zero_iff, List.length_drop, ← List.length_eq_zero_iff]
    omega
  rw [middleOf, ← hempty]
  cases sorted.drop ((sorted.length - 1) / 2) with
  | nil => simp only [Except.error.injEq, true_and, eq_comm]
  | cons a rest => cases rest <;> simp

theorem isSortable_of_numbers {values : List α} (h : ∀ v ∈ values, isNumber v = true) : isSortable values = true := by
  rw [isSortable, Bool.or_eq_true]
  exact .inr (List.all_eq_true.2 h)

theorem isSortable_of_short {values : List α} (h : values.length ≤ insertionLimit) : isSortable values = true := by
  rw [isSortable, Bool.or_eq_true]
  exact .inl (decide_eq_true h)

variable [UnorderedSort] {values sorted : List α}

theorem ascending?_of_isSortable (h : isSortable values = true) : ascending? values = some (ascending values) :=
  if_pos h

/-- Whatever becomes of the order, the sort keeps the values. -/
theorem ascending?_perm (h : ascending? values = some sorted) : sorted.Perm values := by
  rw [ascending?] at h
  split at h
  · obtain rfl := Option.some.inj h
    exact ascending_perm_self values
  · exact UnorderedSort.perm h

section Median

theorem median_of_ascending? (h : ascending? values = some sorted) : median values = middleOf sorted := by
  rw [median, h]

theorem median_of_isSortable (h : isSortable values = true) : median values = middleOf (ascending values) :=
  median_of_ascending? (ascending?_of_isSortable h)

/-- However its values compare, only an empty series has no median. -/
theorem median_eq_failed_iff {error : RangingError} :
    median values = .error (.failed error) ↔ values = [] ∧ error = .emptyInput := by
  cases hsort : ascending? values with
  | none =>
      have hne : values ≠ [] := by
        rintro rfl
        rw [ascending?_of_isSortable (isSortable_of_short (Nat.zero_le _))] at hsort
        cases hsort
      simp [median, hsort, hne]
  | some sorted =>
      rw [median_of_ascending? hsort, middleOf_eq_error_iff, Interruption.failed.injEq]
      exact and_congr_left' ⟨fun h => List.nil_perm.1 (h ▸ ascending?_perm hsort),
        fun h => List.perm_nil.1 (h ▸ ascending?_perm hsort)⟩

theorem median_eq_brokenOff_iff : median values = .error .brokenOff ↔ ascending? values = none := by
  cases hsort : ascending? values with
  | none => simp [median, hsort]
  | some sorted => simp [median_of_ascending? hsort, middleOf_eq_error_iff]

@[simp] theorem median_nil : median ([] : List α) = .error (.failed .emptyInput) :=
  median_eq_failed_iff.2 ⟨rfl, rfl⟩

theorem median_singleton (v : α) : median [v] = .ok v := by
  have hshort : [v].length ≤ insertionLimit := (by decide : 1 ≤ insertionLimit)
  rw [median_of_isSortable (isSortable_of_short hshort)]
  simp [middleOf, ascending, insertDescending]

end Median

section Filters

variable {threshold : α}

@[simp] theorem filterOutliers_nil (threshold : α) : filterOutliers [] threshold = some ⟨[], 0⟩ := by
  rw [filterOutliers, median_nil]

theorem filterOutliers_of_median {middle : α} (h : median values = .ok middle) (threshold : α) :
    filterOutliers values threshold = some ⟨values.filter (isClose threshold middle),
      values.length - (values.filter (isClose threshold middle)).length⟩ := by
  rw [filterOutliers, h]

/-- The filter breaks off where the sort does. -/
theorem filterOutliers_eq_none_iff (threshold : α) :
    filterOutliers values threshold = none ↔ ascending? values = none := by
  rw [← median_eq_brokenOff_iff, filterOutliers]
  split <;> simp_all

/-- A measurement stays if its distance does. -/
theorem filterOutliers_distances (threshold : α) (series : List (Measurement α)) :
    filterOutliers (series.map Measurement.distance) threshold = (closeMeasurements threshold series).map
      fun kept => ⟨kept.map Measurement.distance, series.length - kept.length⟩ := by
  rw [closeMeasurements, filterOutliers]
  cases hmedian : median (series.map Measurement.distance) with
  | error interruption =>
      cases interruption with
      | failed error =>
          obtain rfl := List.map_eq_nil_iff.1 (median_eq_failed_iff.1 hmedian).1
          rfl
      | brokenOff => rfl
  | ok middle =>
      have hfilter : (series.map Measurement.distance).filter (isClose threshold middle) =
          (series.filter fun m => isClose threshold middle m.distance).map Measurement.distance := by
        rw [List.filter_map]
        rfl
      simp only [hfilter, List.length_map, Option.map_some]

theorem closeMeasurements_eq_none_iff {series : List (Measurement α)} :
    closeMeasurements threshold series = none ↔ ascending? (series.map Measurement.distance) = none := by
  rw [← filterOutliers_eq_none_iff threshold, filterOutliers_distances, Option.map_eq_none_iff]

/-- Whole measurements stay or go, so a distance never changes its parameter. -/
theorem closeMeasurements_sublist {series kept : List (Measurement α)}
    (h : closeMeasurements threshold series = some kept) : kept.Sublist series := by
  rw [closeMeasurements] at h
  split at h
  · cases h
  · obtain rfl := Option.some.inj h
    exact List.nil_sublist _
  · obtain rfl := Option.some.inj h
    exact List.filter_sublist

end Filters

end UwbRanging.Statistics
