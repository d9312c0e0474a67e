import UwbRanging.Collection.SourceError
import UwbRanging.Decimal.Fixed
import UwbRanging.Simulation.Handshake
import UwbRanging.Simulation.Room
import UwbRanging.Telemetry.Line

/-!
A simulated testbed. In every round each node ranges with every other and prints the range and the clock
readings. Between rounds the number of nodes and the settings can be changed.
-/

namespace UwbRanging

structure SimulationSettings where
  nodes : Nat
  /-- Receptions are stamped up to so many ticks too early or too late. -/
  noise : Float
  /-- How probable it is that a range is wildly off. -/
  outlierRate : Float
  /-- The parameter on the ranges. -/
  parameter : UInt32

def SimulationSettings.default : SimulationSettings :=
  ⟨4, 2, 0.01, 0⟩

/-- As many places are drawn at least, so that the number of nodes can grow. -/
def minSpots : Nat :=
  64

/-- A number moved into the unit interval. -/
def clampToUnit (x : Float) : Float :=
  if x < 0 then 0 else if 1 < x then 1 else x

/-- The range that a node prints, in centimeters: the drift-compensated estimate, now and then wildly off. -/
def drawRange (e : Exchange) (outlierRate : Float) : Random (Except RangingError Float) := do
  match e.distance (α := Float) .driftCompensated with
  | .error error => return .error error
  | .ok distance =>
    let range := distance.valueIn .centimeters
    if ← Random.happens (clampToUnit outlierRate) then
      return .ok (range + (← Random.between (-1) 1) * roomSize * 100)
    else return .ok range

/-- What one node prints about ranging with the node at `index`. -/
def rangingLines (settings : SimulationSettings) (stream : String) (here : Spot Float) (index : Nat)
    (there : Spot Float) : Random (List StreamLine) := do
  let handshake ← Handshake.draw settings.noise
  let exchange := handshake.exchange (here.distanceTo there / metersPerTick)
  match ← drawRange exchange settings.outlierRate with
  | .error _ => return []
  | .ok range =>
    let other := nodeIdOf index
    return [⟨stream, "TW, " ++ toString other.toNat ++ ", " ++ toString settings.parameter.toNat ++ ", "
        ++ Decimal.fixed 2 range⟩,
      ⟨stream, exchange.dumpLine other⟩]

/-- What all nodes print in one round. -/
def roundLines (settings : SimulationSettings) (spots : List (Spot Float)) : Random (List StreamLine) := do
  let nodes := spots.zipIdx
  let lines ← nodes.mapM fun (here, i) =>
    (nodes.filter fun (_, j) => i ≠ j).mapM fun (there, j) => rangingLines settings (streamOf i) here j there
  return lines.flatten.flatten

/-- The nodes and what they have printed. -/
structure SimulatedTestbed where
  settings : SimulationSettings
  /-- Where nodes stand, present ones first. -/
  spots : List (Spot Float)
  /-- How many nodes have been started. -/
  announced : Nat
  /-- Lines that nobody has taken yet, oldest first. -/
  queue : List StreamLine
  running : Bool

/-- What can be changed between two rounds. -/
inductive SimulationSignal where
  | nodes (n : Nat)
  | noise (ticks : Float)
  | parameter (p : UInt32)

namespace SimulatedTestbed

def start (settings : SimulationSettings) : StateM RandomSource SimulatedTestbed := do
  return ⟨settings, ← drawSpots (max settings.nodes minSpots), 0, [], true⟩

/-- There are never more nodes than places. -/
def change (t : SimulatedTestbed) (signal : SimulationSignal) : SimulatedTestbed :=
  { t with
    settings := match signal with
      | .nodes n => { t.settings with nodes := min n t.spots.length }
      | .noise ticks => { t.settings with noise := ticks }
      | .parameter p => { t.settings with parameter := p } }

def send (t : SimulatedTestbed) (signal : SimulationSignal) : Except SourceError SimulatedTestbed :=
  if t.running then .ok (t.change signal) else .error .stopped

/-- Where the nodes stand that take part in the next round. -/
def present (t : SimulatedTestbed) : List (Spot Float) :=
  t.spots.take t.settings.nodes

/-- What is printed in the next round: nodes that take part for the first time announce themselves. -/
def nextLines (t : SimulatedTestbed) : Random (List StreamLine) := do
  let newcomers := List.range' t.announced (t.present.length - t.announced)
  return newcomers.flatMap announcement ++ (← roundLines t.settings t.present)

def round (t : SimulatedTestbed) : Random SimulatedTestbed := do
  if !t.running then return t
  let lines ← t.nextLines
  return { t with announced := max t.announced t.present.length, queue := t.queue ++ lines }

/-- The testbed after its next round. If the round breaks off or never ends, nothing more is printed. -/
def proceed (t : SimulatedTestbed) (source : RandomSource) : SimulatedTestbed × RandomSource :=
  match t.round.run source with
  | some (.ok next) => next
  | _ => ({ t with running := false }, source)

/-- Where the node with an address stands. -/
def spot? (t : SimulatedTestbed) (id : NodeId) : Option (Spot Float) :=
  if id < firstNodeId then none else t.spots[(id - firstNodeId).toNat]?

/-- Takes every line that is there. -/
def drain (t : SimulatedTestbed) : List StreamLine × SimulatedTestbed :=
  (t.queue, { t with queue := [] })

/-- Throws away every line that is there. -/
def clear (t : SimulatedTestbed) : SimulatedTestbed :=
  { t with queue := [] }

/-- There are no more rounds. Lines that are there stay. -/
def stop (t : SimulatedTestbed) : SimulatedTestbed :=
  { t with running := false }

end SimulatedTestbed

end UwbRanging
