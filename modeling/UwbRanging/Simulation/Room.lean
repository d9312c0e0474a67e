import UwbRanging.Collection.StreamLine
import UwbRanging.Measurement
import UwbRanging.Simulation.RandomSource

/-!
Simulated nodes: where they stand in a square room, what they are called, and what they print when they start.
-/

namespace UwbRanging

/-- A place in the room, in meters. -/
structure Spot (α : Type) where
  x : α
  y : α
  deriving BEq, Repr

namespace Spot

variable {α : Type} [Arith α]

def distanceTo (p q : Spot α) : α :=
  Arith.sqrt (Arith.square (p.x - q.x) + Arith.square (p.y - q.y))

end Spot

/-- The length of a wall, in meters. -/
def roomSize {α : Type} [Arith α] : α :=
  Arith.ofNat 10

/-- Places for some nodes. -/
def drawSpots {α : Type} [Arith α] : Nat → StateM RandomSource (List (Spot α))
  | 0 => return []
  | n + 1 => do
    let x := Random.fraction (← RandomSource.next) * roomSize
    let y := Random.fraction (← RandomSource.next) * roomSize
    return ⟨x, y⟩ :: (← drawSpots n)

/-- The address of the first simulated node; those of the others follow. -/
def firstNodeId : NodeId :=
  200

def nodeIdOf (index : Nat) : NodeId :=
  firstNodeId + UInt32.ofNat index

def streamOf (index : Nat) : String :=
  "synthetic" ++ toString index

/-- What a node prints once it has started and joined the network. -/
def announcement (index : Nat) : List StreamLine :=
  [";; SCHEDULE_USED = SYNTHETIC", "TA, 0, " ++ toString (nodeIdOf index).toNat, "tschass, 1",
    "ts, " ++ toString index].map (StreamLine.mk (streamOf index))

end UwbRanging
