import Mathlib.Algebra.BigOperators.Group.List.Basic
import UwbRanging.Proofs.Measurement
import UwbRanging.Proofs.Statistics.Sort

/-!
The outlier filter on a whole set. What it does to the series at one key is what the plain filter does to the distances
of that series, whatever arithmetic they are compared in, and it breaks off where that filter does.
-/

namespace UwbRanging

namespace Statistics

section Filters

variable {α : Type} [Arith α] [UnorderedSort]

/-- What the filter keeps of a series; nothing if it breaks off. -/
def keptClose (threshold : α) (series : List (Measurement α)) : List (Measurement α) :=
  (closeMeasurements threshold series).getD []

theorem keptClose_of_median {series : List (Measurement α)} {middle : α}
    (h : median (series.map Measurement.distance) = .ok middle) (threshold : α) :
    keptClose threshold series = series.filter fun m => isClose threshold middle m.distance := by
  rw [keptClose, closeMeasurements, h, Option.getD_some]

theorem keptClose_sublist (threshold : α) (series : List (Measurement α)) :
    (keptClose threshold series).Sublist series := by
  rw [keptClose]
  cases hclose : closeMeasurements threshold series with
  | none => exact List.nil_sublist _
  | some kept => exact closeMeasurements_sublist hclose

/-- Where the filter does not break off, the distances that the plain filter retains are those of what is kept. -/
theorem filterOutliers_of_isSome {threshold : α} {series : List (Measurement α)}
    (h : (closeMeasurements threshold series).isSome = true) :
    filterOutliers (series.map Measurement.distance) threshold =
      some ⟨(keptClose threshold series).map Measurement.distance,
        series.length - (keptClose threshold series).length⟩ := by
  obtain ⟨kept, hkept⟩ := Option.isSome_iff_exists.1 h
  rw [filterOutliers_distances, keptClose, hkept]
  rfl

variable {κ : Type} [KeyOrder κ]

/-- The filter breaks off at no series of the set. -/
def Filterable (s : MeasurementSet κ α) (threshold : α) : Prop :=
  ∀ d ∈ s.series.entries, (closeMeasurements threshold d.2).isSome = true

instance (s : MeasurementSet κ α) (threshold : α) : Decidable (Filterable s threshold) :=
  inferInstanceAs (Decidable (∀ d ∈ s.series.entries, (closeMeasurements threshold d.2).isSome = true))

variable {s : MeasurementSet κ α} {threshold : α}

theorem filterMeasurementSet_of_filterable (h : Filterable s threshold) :
    filterMeasurementSet s threshold = some (s.mapSeries (keptClose threshold),
      (s.series.entries.map fun d => d.2.length - (keptClose threshold d.2).length).sum) := by
  have hall : (s.series.mapIfAll fun _ series => (closeMeasurements threshold series).map fun kept =>
      (kept, series.length - kept.length)) =
      some (s.series.map fun _ series =>
        (keptClose threshold series, series.length - (keptClose threshold series).length)) := by
    refine SortedMap.mapIfAll_eq_some fun d hd => ?_
    obtain ⟨kept, hkept⟩ := Option.isSome_iff_exists.1 (h d hd)
    rw [keptClose, hkept]
    rfl
  rw [filterMeasurementSet, hall]
  simp only [Option.bind_eq_bind, Option.bind_some, Option.pure_def, MeasurementSet.mapSeries, SortedMap.map_map,
    SortedMap.values_map, List.foldr_map, List.sum_eq_foldr]

theorem filterMeasurementSet_of_not_filterable (h : ¬ Filterable s threshold) :
    filterMeasurementSet s threshold = none := by
  obtain ⟨d, hd, hnone⟩ : ∃ d ∈ s.series.entries, closeMeasurements threshold d.2 = none := by
    simpa [Filterable] using h
  have hmap : (s.series.mapIfAll fun _ series => (closeMeasurements threshold series).map fun kept =>
      (kept, series.length - kept.length)) = none :=
    SortedMap.mapIfAll_eq_none_iff.2 ⟨d, hd, by rw [hnone, Option.map_none]⟩
  rw [filterMeasurementSet, hmap]
  rfl

theorem filterMeasurementSet_eq_none_iff : filterMeasurementSet s threshold = none ↔ ¬ Filterable s threshold := by
  refine ⟨fun hnone h => ?_, filterMeasurementSet_of_not_filterable⟩
  rw [filterMeasurementSet_of_filterable h] at hnone
  cases hnone

/-- A set can be filtered if and only if the distances at each of its keys can. -/
theorem filterable_iff : Filterable s threshold ↔ ∀ k ∈ s.keys, filterOutliers (s.distances k) threshold ≠ none := by
  rw [MeasurementSet.keys, SortedMap.keys, List.forall_mem_map]
  refine forall₂_congr fun d hd => ?_
  rw [s.distances_of_mem hd, filterOutliers_distances, ne_eq, Option.map_eq_none_iff, Option.isSome_iff_ne_none]

/-- A key without a series has no distances, and none is retained of these. -/
theorem filterOutliers_distances_mapSeries (h : Filterable s threshold) (k : κ) :
    filterOutliers (s.distances k) threshold = some ⟨(s.mapSeries (keptClose threshold)).distances k,
      (s.distances k).length - ((s.mapSeries (keptClose threshold)).distances k).length⟩ := by
  simp only [MeasurementSet.distances, s.series?_mapSeries]
  cases hk : s.series? k with
  | none => exact filterOutliers_nil threshold
  | some series =>
      have hclose := h (k, series) (SortedMap.get?_eq_some_iff.1 hk)
      simp only [Option.map_some, Option.getD_some, List.length_map, filterOutliers_of_isSome hclose]

/-- The filter on a set is the plain filter at every key. It breaks off if that filter does at one of the keys. If
not, the unit and the keys stay, at each key the distances are those that the plain filter retains, and each
measurement that stays is one of the series, in its place. The count is that of all that the plain filter removes, and
of all that the set has lost. -/
theorem filterMeasurementSet_is_filterOutliers (s : MeasurementSet κ α) (threshold : α) :
    (filterMeasurementSet s threshold = none ↔ ∃ k ∈ s.keys, filterOutliers (s.distances k) threshold = none) ∧
    ∀ filtered removed, filterMeasurementSet s threshold = some (filtered, removed) →
      filtered.unit = s.unit ∧ filtered.keys = s.keys ∧
      (∀ k, Option.Rel List.Sublist (filtered.series? k) (s.series? k)) ∧
      (∃ removedAt : κ → Nat,
        (∀ k, filterOutliers (s.distances k) threshold = some ⟨filtered.distances k, removedAt k⟩) ∧
          removed = (s.keys.map removedAt).sum) ∧
      removed + filtered.totalMeasurements = s.totalMeasurements := by
  constructor
  · rw [filterMeasurementSet_eq_none_iff, filterable_iff]
    simp
  · intro filtered removed hfiltered
    have h : Filterable s threshold := by
      by_contra h
      rw [filterMeasurementSet_of_not_filterable h] at hfiltered
      cases hfiltered
    rw [filterMeasurementSet_of_filterable h, Option.some.injEq, Prod.mk.injEq] at hfiltered
    obtain ⟨rfl, rfl⟩ := hfiltered
    refine ⟨rfl, SortedMap.keys_map _ _, fun k => ?_, ⟨_, filterOutliers_distances_mapSeries h, ?_⟩, ?_⟩
    · rw [s.series?_mapSeries]
      cases s.series? k with
      | none => exact .none
      | some series => exact .some (keptClose_sublist threshold series)
    · rw [MeasurementSet.keys, SortedMap.keys, List.map_map]
      refine congrArg List.sum (List.map_congr_left fun d hd => ?_)
      have hseries : s.series? d.1 = some d.2 := SortedMap.get?_eq_some_iff.2 hd
      simp only [Function.comp_apply, MeasurementSet.distances, s.series?_mapSeries, hseries, Option.map_some,
        Option.getD_some, List.length_map]
    · rw [s.totalMeasurements_eq, MeasurementSet.totalMeasurements_eq, MeasurementSet.mapSeries, SortedMap.map,
        List.map_map, ← List.sum_map_add]
      refine congrArg List.sum (List.map_congr_left fun d _ => ?_)
      exact Nat.sub_add_cancel (keptClose_sublist threshold d.2).length_le

end Filters

/-- An infinite distance and one that is no number go, the others keep their parameters, and no key is lost. -/
example :
    let s : MeasurementSet RangeKey Float :=
      ⟨.centimeters, .ofList [((1, 2), [⟨7, 3⟩, ⟨5, 4⟩, ⟨7, 5⟩, ⟨5, 1 / 0⟩, ⟨6, 0 / 0⟩]), ((1, 3), []),
        ((2, 1), [⟨0, 0 / 0⟩])]⟩
    (filterMeasurementSet s 2).map (fun (filtered, removed) =>
        (filtered.series.entries.map fun d => (d.1, d.2.map Measurement.parameter), removed)) =
      some ([((1, 2), [5, 7]), ((1, 3), []), ((2, 1), [])], 4) := by
  decide +kernel

end Statistics

end UwbRanging
