import UwbRanging.Run

/-!
How long a run lasted and how busy each node was. The parameter counts time in scheduling experiments; the
exchanges of a run carry no parameter and are left out.
-/

namespace UwbRanging

structure RunActivity (α : Type) where
  /-- The least parameter. -/
  first : UInt32
  /-- The greatest parameter. -/
  last : UInt32
  /-- The measurements that each node reported. -/
  counts : SortedMap NodeId Nat
  /-- The duration of the run in seconds, if that of a step is known. -/
  duration : Option α
  /-- Measurements per second of each node, if the run lasted any time. -/
  rates : Option (SortedMap NodeId α)
  deriving BEq

namespace RunActivity

variable {α : Type}

/-- The steps of the parameter from the first to the last. -/
def span (a : RunActivity α) : UInt32 :=
  a.last - a.first

end RunActivity

namespace CollectedRun

variable {α : Type}

/-- The reporting node and the measurements of each series of ranges and distance differences. -/
def reportedSeries (run : CollectedRun α) : List (NodeId × List (Measurement α)) :=
  run.twr.series.entries.map (fun (k, series) => (k.1, series))
    ++ run.tdoa.series.entries.map (fun (k, series) => (k.1, series))

/-- The least and the greatest of some parameters. -/
def extent? : List UInt32 → Option (UInt32 × UInt32)
  | [] => none
  | p :: ps => some (ps.foldl (fun (lo, hi) q => (min lo q, max hi q)) (p, p))

/-- Extent and counts of a run, unless it has neither ranges nor distance differences. `step` is the duration
of one step of the parameter in seconds. -/
def activity? [Arith α] (run : CollectedRun α) (step : Option α) : Option (RunActivity α) := do
  let reported := run.reportedSeries
  let (first, last) ← extent? (reported.flatMap fun (_, series) => series.map Measurement.parameter)
  let counts := reported.foldl (fun counts (node, series) =>
    counts.upsert node fun n => n.getD 0 + series.length) SortedMap.empty
  let duration := step.map fun s => Arith.ofNat (last - first).toNat * s
  let rates := (duration.filter (Arith.lt Arith.zero)).map fun d =>
    counts.map fun _ n => Arith.ofNat n / d
  return { first, last, counts, duration, rates }

end CollectedRun

end UwbRanging
