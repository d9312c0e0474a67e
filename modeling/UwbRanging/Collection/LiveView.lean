import UwbRanging.Collection.Collector
import UwbRanging.Decimal.Fixed
import UwbRanging.Text.Padding

/-!
What is shown of a collection while it goes on.
-/

namespace UwbRanging.Collector

open Text

/-- The pair of nodes and its average, with two places. -/
def averageLine (unit : LengthUnit) (k : RangeKey) (average : Float) : String :=
  " " ++ padLeft 5 (toString k.1.toNat) ++ " -> " ++ padRight 5 (toString k.2.toNat) ++ " "
    ++ padLeft 10 (Decimal.fixed 2 average) ++ " " ++ unit.suffix

/-- The counts of lines and streams, the averages of the latest ranges, and whether every node is done. -/
def describe (c : Collector Float) (window : Nat) : List String :=
  (" " ++ toString c.recorded ++ " lines recorded, " ++ toString c.skipped ++ " skipped, "
      ++ toString c.run.streams.size ++ " streams")
    :: (c.latestAverages window).entries.map (fun (k, average) => averageLine c.run.twr.unit k average)
    ++ (if c.allFinished then [" All nodes finished their schedule"] else [])

/-- What is shown before anything has been collected. -/
def waiting : List String :=
  [" Waiting for data... "]

end UwbRanging.Collector
