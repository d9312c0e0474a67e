import UwbRanging.Proofs.Collection.History
import UwbRanging.Proofs.Statistics.MovingAverage

/-!
The averages that are shown while a run is collected. There is one for every pair that has a range, and in exact
arithmetic it is the mean of the latest ranges of the pair, as long as all ranges before these were finite numbers.
-/

namespace UwbRanging.Collector

open Statistics Extended

section Reachable

variable {α : Type} [Arith α] {settings : CollectorSettings α} {c : Collector α} {window : Nat}

/-- A new collector, and what becomes of it by filing lines, of any stream and in any order, and by skipping others. -/
inductive Reachable (settings : CollectorSettings α) : Collector α → Prop
  | new : Reachable settings (.new settings)
  | skip {c : Collector α} : Reachable settings c → Reachable settings c.skip
  | record {c : Collector α} (stream : String) (line : TelemetryLine α) :
      Reachable settings c → Reachable settings (c.record stream line)

theorem reachable_consumeAll (settings : CollectorSettings Float) (lines : List StreamLine) :
    Reachable settings ((new settings).consumeAll lines) := by
  induction lines using List.reverseRecOn with
  | nil => exact .new
  | append_singleton lines line ih =>
      rw [consumeAll_append_singleton]
      cases line.decoded? with
      | none => exact ih.skip
      | some decoded =>
          rw [← record_eq]
          exact ih.record line.stream decoded

/-- A series begins with its first range. -/
theorem Reachable.series_ne_nil (h : Reachable settings c) {k : RangeKey} {series : List (Measurement α)}
    (hseries : c.run.twr.series? k = some series) : series ≠ [] := by
  induction h generalizing series with
  | new => cases hseries
  | skip _ ih => exact ih hseries
  | @record c stream line _ ih =>
      rw [record_eq] at hseries
      change (c.run.twr.pushAll (line.filedRange? c.settings (c.address? stream)).toList).series? k = _ at hseries
      cases hentry : line.filedRange? c.settings (c.address? stream) with
      | none => exact ih (by rwa [hentry] at hseries)
      | some entry =>
          rw [hentry, Option.toList_some, MeasurementSet.pushAll_singleton, series?_push] at hseries
          split at hseries
          · cases hseries
            simp
          · exact ih hseries

theorem Reachable.latestAverages_eq (h : Reachable settings c) (hwindow : 0 < window) :
    c.latestAverages window = c.run.twr.series.map fun _ series =>
      ((movingAverage (series.map Measurement.distance) window).getLast?).getD Arith.zero := by
  refine SortedMap.filterMap_eq_map fun e he => ?_
  have hne : e.2 ≠ [] := h.series_ne_nil (SortedMap.get?_eq_some_iff.2 he)
  have haverages : movingAverage (e.2.map Measurement.distance) window ≠ [] := by
    rw [← List.length_pos_iff, length_movingAverage hwindow, List.length_map]
    exact List.length_pos_iff.2 hne
  rw [List.getLast?_eq_some_getLast haverages, Option.getD_some]

end Reachable

section Exact

variable {K : Type} [Field K] [LinearOrder K] [FloorSemiring K] [SquareRoot K]

/-- Each element of a moving average is the mean of the values in its window, and each average that is shown is the
mean of the latest ranges of its pair, as long as what came before them were finite numbers. After anything else there
is no average any more. -/
theorem averages_over_window (settings : CollectorSettings (Extended K)) {window : Nat} (hwindow : 0 < window) :
    (∀ (values : List (Extended K)) (i : Nat), i < values.length →
      ∃ m, mean (latest window (values.take (i + 1))) = .ok m ∧
        (movingAverage values window)[i]? =
          some (if (departed window (values.take (i + 1))).all Arith.isFinite then m else nan)) ∧
    ∀ c : Collector (Extended K), Reachable settings c →
      (c.latestAverages window).keys = c.run.twr.keys ∧
      ∀ k series, c.run.twr.series? k = some series →
        ∃ m, mean (latest window (series.map Measurement.distance)) = .ok m ∧
          (c.latestAverages window).get? k =
            some (if (departed window (series.map Measurement.distance)).all Arith.isFinite then m else nan) := by
  constructor
  · intro values i hi
    have hne : values.take (i + 1) ≠ [] := by
      rw [← List.length_pos_iff, List.length_take]
      omega
    rw [getElem?_movingAverage hwindow hi]
    obtain ⟨m, hm, haverage⟩ := exists_mean_latest hwindow hne
    exact ⟨m, hm, congrArg some haverage⟩
  · intro c hc
    rw [hc.latestAverages_eq hwindow]
    refine ⟨SortedMap.keys_map _ _, fun k series hseries => ?_⟩
    have hne : series.map Measurement.distance ≠ [] := fun hnil => hc.series_ne_nil hseries (List.map_eq_nil_iff.1 hnil)
    have hget : c.run.twr.series.get? k = some series := hseries
    obtain ⟨m, hm, haverage⟩ := exists_mean_latest hwindow hne
    refine ⟨m, hm, ?_⟩
    rw [SortedMap.get?_map, hget, Option.map_some, getLast?_movingAverage hwindow hne, Option.getD_some, haverage]

/-- A node has announced its address and then three ranges. -/
def threeRanges : Collector (Extended ℚ) :=
  (((new .default).record "a" (.address 0 1)).record "a" (.twoWayRange 2 0 (finite 4) none)).record "a"
    (.twoWayRange 2 0 (finite 6) none) |>.record "a" (.twoWayRange 2 0 (finite 10) none)

theorem averages_over_window_three_ranges : (threeRanges.latestAverages 2).get? (1, 2) = some (finite 8) := by
  have hreach : Reachable .default threeRanges := (((Reachable.new.record _ _).record _ _).record _ _).record _ _
  have hranges : (threeRanges.run.twr.series? (1, 2)).map (·.map Measurement.distance) =
      some [finite 4, finite 6, finite 10] := by
    decide +kernel
  have hmean : mean (latest 2 [finite 4, finite 6, finite 10]) = .ok (finite 8 : Extended ℚ) := by decide +kernel
  obtain ⟨series, hseries, hdistances⟩ := Option.map_eq_some_iff.1 hranges
  obtain ⟨m, hm, haverage⟩ := ((averages_over_window .default (by decide : 0 < 2)).2 _ hreach).2 (1, 2) series hseries
  rw [hdistances, hmean] at hm
  cases hm
  rw [haverage, hdistances]
  decide +kernel

/-- A window of one value, and the average does not look at it. -/
theorem movingAverage_keeps_departed_nan :
    movingAverage [nan, finite 1, finite 2] 1 = ([nan, nan, nan] : List (Extended ℚ)) ∧
      mean (latest 1 [nan, finite 1, finite 2]) = .ok (finite 2 : Extended ℚ) := by
  decide +kernel

end Exact

end UwbRanging.Collector
