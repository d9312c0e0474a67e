import UwbRanging.Measurement
import UwbRanging.Measurement
import UwbRanging.RangingError
import UwbRanging.Statistics.Sort

/-!
Outliers: the values of a series that are not close to its median. Where the sort behind the median breaks off, nothing
is filtered.
-/

namespace UwbRanging.Statistics

variable {α : Type} [Arith α]

/-- The value that stands in the middle of sorted values, or the mean of the two that do. -/
def middleOf (sorted : List α) : Except Interruption α :=
  match sorted.drop ((sorted.length - 1) / 2) with
  | [] => .error (.failed .emptyInput)
  | [a] => .ok a
  | a :: b :: _ => .ok (if sorted.length % 2 = 0 then (a + b) / Arith.ofNat 2 else a)

/-- The middle value, or the mean of the two middle values. -/
def median [UnorderedSort] (values : List α) : Except Interruption α :=
  match ascending? values with
  | none => .error .brokenOff
  | some sorted => middleOf sorted

/-- Closer than `threshold` to the middle. -/
def isClose (threshold middle v : α) : Bool :=
  Arith.lt (Arith.abs (v - middle)) threshold

structure FilterOutcome (α : Type) where
  /-- What stayed, in its order. -/
  retained : List α
  /-- How many values were dropped. -/
  removed : Nat
  deriving BEq

/-- Keeps the values that are close to the median. -/
def filterOutliers [UnorderedSort] (values : List α) (threshold : α) : Option (FilterOutcome α) :=
  match median values with
  | .error .brokenOff => none
  | .error (.failed _) => some ⟨[], 0⟩
  | .ok middle =>
    let retained := values.filter (isClose threshold middle)
    some ⟨retained, values.length - retained.length⟩

def filterOutliersNonempty [UnorderedSort] (values : List α) (threshold : α) :
    Except Interruption (FilterOutcome α) :=
  if values.isEmpty then .error (.failed .emptyInput)
  else match filterOutliers values threshold with
    | none => .error .brokenOff
    | some outcome => .ok outcome

/-- The measurements whose distance is close to the median of all distances. -/
def closeMeasurements [UnorderedSort] (threshold : α) (series : List (Measurement α)) :
    Option (List (Measurement α)) :=
  match median (series.map Measurement.distance) with
  | .error .brokenOff => none
  | .error (.failed _) => some []
  | .ok middle => some (series.filter fun m => isClose threshold middle m.distance)

/-- Filters each series on its own, and counts what was dropped from all of them. -/
def filterMeasurementSet [UnorderedSort] {κ : Type} [KeyOrder κ] (s : MeasurementSet κ α) (threshold : α) :
    Option (MeasurementSet κ α × Nat) := do
  let outcomes ← s.series.mapIfAll fun _ series =>
    (closeMeasurements threshold series).map fun kept => (kept, series.length - kept.length)
  return ({ s with series := outcomes.map fun _ o => o.1 }, outcomes.values.foldr (fun o n => o.2 + n) 0)

end UwbRanging.Statistics
