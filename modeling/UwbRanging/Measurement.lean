import UwbRanging.Length
import UwbRanging.SortedMap

/-!
Series of measured distances, one series per pair or triple of nodes, all in one unit.
-/

namespace UwbRanging

/-- The short address of a node. -/
abbrev NodeId :=
  UInt32

/-- The node that measured a range and the node it ranged with. -/
abbrev RangeKey :=
  NodeId × NodeId

/-- A listener and the two anchors whose arrival times it compared. -/
abbrev TdoaKey :=
  NodeId × NodeId × NodeId

structure Measurement (α : Type) where
  /-- The setting of the experiment the distance was measured under, such as a slot spacing. -/
  parameter : UInt32
  /-- In the unit of the set that holds the measurement. -/
  distance : α
  deriving BEq, Repr

structure MeasurementSet (κ α : Type) [KeyOrder κ] where
  unit : LengthUnit
  /-- Each series in the order of arrival. -/
  series : SortedMap κ (List (Measurement α))

namespace MeasurementSet

variable {κ α : Type} [KeyOrder κ]

instance [BEq κ] [BEq α] : BEq (MeasurementSet κ α) where
  beq s t := s.unit == t.unit && s.series == t.series

def empty (unit : LengthUnit) : MeasurementSet κ α :=
  ⟨unit, .empty⟩

/-- Appends to the series at `k`, which begins here if there is none. -/
def push (s : MeasurementSet κ α) (k : κ) (m : Measurement α) : MeasurementSet κ α :=
  { s with series := s.series.upsert k fun ms => ms.getD [] ++ [m] }

def series? (s : MeasurementSet κ α) (k : κ) : Option (List (Measurement α)) :=
  s.series.get? k

/-- The distances at `k` in the order of arrival, none if there is no series. -/
def distances (s : MeasurementSet κ α) (k : κ) : List α :=
  ((s.series? k).getD []).map Measurement.distance

def keys (s : MeasurementSet κ α) : List κ :=
  s.series.keys

/-- The number of series, empty ones included. -/
def size (s : MeasurementSet κ α) : Nat :=
  s.series.size

def isEmpty (s : MeasurementSet κ α) : Bool :=
  s.series.isEmpty

def totalMeasurements (s : MeasurementSet κ α) : Nat :=
  s.series.values.flatten.length

def mapSeries (s : MeasurementSet κ α) (f : List (Measurement α) → List (Measurement α)) :
    MeasurementSet κ α :=
  { s with series := s.series.map fun _ ms => f ms }

/-- Only the series that satisfy `p`. -/
def retain (s : MeasurementSet κ α) (p : κ → List (Measurement α) → Bool) : MeasurementSet κ α :=
  { s with series := s.series.filter p }

def convert [Arith α] (s : MeasurementSet κ α) (unit : LengthUnit) : MeasurementSet κ α :=
  let factor : α := s.unit.factorTo unit
  { s.mapSeries (·.map fun m => { m with distance := m.distance * factor }) with unit }

end MeasurementSet

end UwbRanging
