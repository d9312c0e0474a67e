import UwbRanging.Measurement

/-!
Everything that is collected during one run: the measured distances and what each stream said about its node.
-/

namespace UwbRanging

/-- What a node said about itself, each item as it was said last. -/
structure StreamInfo where
  address : Option NodeId
  /-- High and low part of the link address. -/
  linkAddress : Option (UInt32 × UInt32)
  /-- The slot the node ranges in. -/
  timeslot : Option UInt32
  /-- Whether the node has joined the network. -/
  associated : Option Bool
  neighbors : List NodeId
  /-- The settings of the firmware by name. -/
  config : SortedMap String String
  deriving BEq, DecidableEq

def StreamInfo.empty : StreamInfo :=
  ⟨none, none, none, none, [], .empty⟩

structure CollectedRun (α : Type) where
  /-- Ranges that the nodes computed. -/
  twr : MeasurementSet RangeKey α
  /-- Distance differences that listeners computed. -/
  tdoa : MeasurementSet TdoaKey α
  /-- Ranges computed here from the clock readings of exchanges, in ticks. -/
  exchanges : MeasurementSet RangeKey α
  /-- By the name of the stream. -/
  streams : SortedMap String StreamInfo
  deriving BEq

/-- A run without measurements whose sets are in ticks. -/
def CollectedRun.empty {α : Type} : CollectedRun α :=
  ⟨.empty .ticks, .empty .ticks, .empty .ticks, .empty⟩

end UwbRanging
