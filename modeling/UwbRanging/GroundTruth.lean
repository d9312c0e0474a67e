import UwbRanging.Arith
import UwbRanging.RangingError

/-!
True distances between surveyed nodes, to compare measured ones with.
-/

namespace UwbRanging

/-- Where a node stands, in meters. -/
structure Position (α : Type) where
  x : α
  y : α
  z : α
  deriving BEq

variable {α : Type} [Arith α]

namespace Position

/-- In meters. -/
def distanceTo (p q : Position α) : α :=
  Arith.sqrt (Arith.square (p.x - q.x) + Arith.square (p.y - q.y) + Arith.square (p.z - q.z))

/-- How much farther a listener is from the first anchor than from the second, in meters. -/
def tdoa (listener anchor1 anchor2 : Position α) : α :=
  listener.distanceTo anchor1 - listener.distanceTo anchor2

end Position

def absoluteError (mean groundTruth : α) : α :=
  Arith.abs (mean - groundTruth)

end UwbRanging
