import UwbRanging.Measurement
import UwbRanging.Proofs.SortedMap

/-!
Sets of measurements, series by series.
-/

namespace UwbRanging.MeasurementSet

variable {κ α : Type} [KeyOrder κ] (s : MeasurementSet κ α)

theorem series?_mapSeries (f : List (Measurement α) → List (Measurement α)) (k : κ) :
    (s.mapSeries f).series? k = (s.series? k).map f :=
  s.series.get?_map _ k

theorem distances_of_mem {d : κ × List (Measurement α)} (h : d ∈ s.series.entries) :
    s.distances d.1 = d.2.map Measurement.distance := by
  rw [distances, series?, SortedMap.get?_eq_some_iff.2 h, Option.getD_some]

theorem distances_convert [Arith α] (unit : LengthUnit) (k : κ) :
    (s.convert unit).distances k = (s.distances k).map (· * s.unit.factorTo unit) := by
  simp only [distances, convert, series?, mapSeries, SortedMap.get?_map]
  cases s.series.get? k with
  | none => rfl
  | some series => simp only [Option.map_some, Option.getD_some, List.map_map, Function.comp_def]

theorem totalMeasurements_eq : s.totalMeasurements = (s.series.entries.map fun d => d.2.length).sum := by
  rw [totalMeasurements, List.length_flatten, SortedMap.values, List.map_map]
  rfl

/-- The number of measurements in the series whose keys satisfy `p`. -/
def countUnder (p : κ → Bool) : Nat :=
  ((s.series.entries.filter fun d => p d.1).map fun d => d.2.length).sum

end UwbRanging.MeasurementSet
