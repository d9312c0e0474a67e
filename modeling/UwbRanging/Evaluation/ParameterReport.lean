import UwbRanging.GroundTruth
import UwbRanging.Measurement
import UwbRanging.Statistics.Summary

/-!
A series broken down by the parameter of its measurements.
-/

namespace UwbRanging

open Statistics

variable {α : Type}

/-- The distances of each parameter, in their order. -/
def groupByParameter (series : List (Measurement α)) : SortedMap UInt32 (List α) :=
  series.foldl (fun groups m => groups.upsert m.parameter fun ds => ds.getD [] ++ [m.distance]) .empty

/-- Statistics per parameter as sequences with one entry for each parameter, ready to be plotted. -/
structure ParameterReport (α : Type) where
  parameters : List UInt32
  counts : List Nat
  means : List α
  stdDevs : List α
  ciLows : List α
  ciHighs : List α
  /-- How far each mean is from the truth, where that is known. -/
  errors : Option (List α)
  deriving BEq

namespace ParameterReport

/-- The sequences of a list of summaries. -/
def ofSummaries (rows : List (UInt32 × Summary α)) : ParameterReport α where
  parameters := rows.map (·.1)
  counts := rows.map (·.2.count)
  means := rows.map (·.2.mean)
  stdDevs := rows.map (·.2.stdDev)
  ciLows := rows.map (·.2.ciLow)
  ciHighs := rows.map (·.2.ciHigh)
  errors := none

variable [Arith α]

/-- Summarises the distances of each parameter, in ascending order of the parameters. -/
def build [StudentQuantile α] (series : List (Measurement α)) (confidence : α) :
    Except RangingError (ParameterReport α) := do
  let rows ← (groupByParameter series).entries.mapM fun (parameter, distances) => do
    return (parameter, ← summarize distances confidence)
  return ofSummaries rows

def withGroundTruth (r : ParameterReport α) (truth : α) : ParameterReport α :=
  { r with errors := some (r.means.map (absoluteError · truth)) }

/-- The number of parameters. -/
def size (r : ParameterReport α) : Nat :=
  r.parameters.length

def isEmpty (r : ParameterReport α) : Bool :=
  r.parameters.isEmpty

end ParameterReport

end UwbRanging
