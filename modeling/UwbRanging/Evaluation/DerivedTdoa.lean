import UwbRanging.Measurement
import UwbRanging.Statistics.Moments

/-!
Distance differences derived from ranges: a node that ranges with two others knows how much farther it is from
one than from the other.
-/

namespace UwbRanging

variable {α : Type} [Arith α]

/-- The mean range of each node to each of its neighbours. Empty series have none. -/
def meanRanges (s : MeasurementSet RangeKey α) : SortedMap NodeId (SortedMap NodeId α) :=
  s.series.entries.foldl (fun means ((node, other), series) =>
    match Statistics.mean (series.map Measurement.distance) with
    | .ok m => means.upsert node fun ranges => (ranges.getD .empty).insert other m
    | .error _ => means) .empty

/-- The differences of one node's mean ranges, for each ordered pair of distinct neighbours. -/
def rangeDifferences (node : NodeId) (ranges : SortedMap NodeId α) : List (TdoaKey × α) :=
  ranges.entries.flatMap fun (a, meanA) =>
    (ranges.entries.filter fun (b, _) => a ≠ b).map fun (b, meanB) => ((node, a, b), meanA - meanB)

/-- For each node and each ordered pair of distinct neighbours, how much farther the first is. -/
def tdoaFromMeanRanges (means : SortedMap NodeId (SortedMap NodeId α)) : SortedMap TdoaKey α :=
  .ofList (means.entries.flatMap fun (node, ranges) => rangeDifferences node ranges)

end UwbRanging
