import UwbRanging.Arith
import UwbRanging.RangingError

/-!
Quantiles of the standard normal distribution and of Student's t distribution. Both densities are bell curves
around zero. The area under a bell is summed by double exponential quadrature, and the point that cuts off a
given share of it is found by Newton's method: on the area itself near the middle, and in the tail on the
logarithms of the area and of the point, where the bell may be arbitrarily thin or heavy.
-/

namespace UwbRanging.Statistics

/-- `log (1 + x)` for `x` at least zero, also where `1 + x` rounds to one. -/
def log1p (x : Float) : Float :=
  let y := 1.0 + x
  if y == 1.0 then x else if y.isFinite then y.log * (x / (y - 1.0)) else y.log

/-- `log (1 + exp a)`. -/
def log1pExp (a : Float) : Float :=
  if 0.0 < a then a + log1p (-a).exp else log1p a.exp

/-- A bell curve around zero, one in the middle. Points in the tail are given by their logarithm. -/
structure Bell where
  /-- The logarithm of the curve at a point. -/
  logAt : Float → Float
  /-- The logarithm of the curve in the tail at `exp y`. -/
  logTail : Float → Float
  /-- The logarithm of the curve at `(1 + w) * exp y` over the curve at `exp y`. -/
  logRatio : Float → Float → Float
  /-- The `w` after which that ratio has fallen far. -/
  reach : Float → Float
  /-- The logarithm of a point whose tail is smaller than the area with the given logarithm. -/
  beyond : Float → Float

/-- The standard normal density. -/
def Bell.normal : Bell where
  logAt x := -(x * x) / 2.0
  logTail y := -(2.0 * y).exp / 2.0
  logRatio y w := -(2.0 * y).exp * (w + w * w / 2.0)
  reach y := (-2.0 * y).exp
  beyond logArea := (2.0 - 2.0 * logArea).log / 2.0

/-- The density of Student's t distribution with `n` degrees of freedom. -/
def Bell.student (n : Float) : Bell where
  logAt x := -(n + 1.0) / 2.0 * log1p (x * x / n)
  logTail y := -(n + 1.0) / 2.0 * log1pExp (2.0 * y - n.log)
  logRatio y w := -(n + 1.0) / 2.0 * log1p ((2.0 * w + w * w) / (1.0 + (n.log - 2.0 * y).exp))
  reach y := (1.0 + (n.log - 2.0 * y).exp) / (n + 1.0)
  beyond logArea := n.log / 2.0 - (n.log / 2.0 + logArea) / n

/-- Arguments of the quadrature, from -4 to 4 by steps of 1/64. -/
def quadratureSteps : List Float :=
  (List.range 513).map fun k => (Float.ofNat k - 256.0) / 64.0

/-- Points and weights for an integral from zero to infinity. -/
def halfLineRule : List (Float × Float) :=
  quadratureSteps.map fun v =>
    let half := 1.5707963267948966
    let e := v.exp
    let point := (half * (e - 1.0 / e) / 2.0).exp
    (point, point * half * (e + 1.0 / e) / 2.0 / 64.0)

/-- Points and weights for an integral from zero to one. -/
def unitRule : List (Float × Float) :=
  quadratureSteps.map fun v =>
    let half := 1.5707963267948966
    let e := v.exp
    let q := (-(half * (e - 1.0 / e))).exp
    let point := 1.0 / (1.0 + q)
    (point, point * (q / (1.0 + q)) * half * (e + 1.0 / e) / 64.0)

/-- The integral of the exponential of `f` by a rule, its points stretched by `scale`. -/
def integrate (rule : List (Float × Float)) (scale : Float) (f : Float → Float) : Float :=
  scale * rule.foldl (fun sum (point, weight) => sum + weight * (f (scale * point)).exp) 0.0

/-- Half the area under the bell. -/
def Bell.halfArea (b : Bell) : Float :=
  integrate halfLineRule 1.0 b.logAt

/-- The point `x` with the area `target` between zero and it, improved from below. -/
def Bell.innerPoint (b : Bell) (target : Float) : Nat → Float → Float
  | 0, x => x
  | fuel + 1, x =>
    let next := x + (target - integrate unitRule x b.logAt) / (b.logAt x).exp
    if next == x then x else b.innerPoint target fuel next

/-- The logarithm of the area of the tail from `exp y` on, and how far its own logarithm falls with `y`. -/
def Bell.tail (b : Bell) (y : Float) : Float × Float :=
  let ratio := integrate halfLineRule (b.reach y) (b.logRatio y)
  (b.logTail y + y + ratio.log, 1.0 / ratio)

/-- The logarithm `y` of the point whose tail has the area with the logarithm `logArea`, improved from
above. -/
def Bell.outerPoint (b : Bell) (logArea : Float) : Nat → Float → Float
  | 0, y => y
  | fuel + 1, y =>
    let (logTail, slope) := b.tail y
    let next := y + (logTail - logArea) / slope
    if next == y then y else b.outerPoint logArea fuel next

/-- The point that leaves the share `p` of the area below it. -/
def Bell.quantile (b : Bell) (p : Float) : Float :=
  let offset := p - 0.5
  let half := b.halfArea
  let sign := if offset < 0.0 then -1.0 else 1.0
  if offset == 0.0 then 0.0
  else if offset.abs ≤ 0.25 then
    let target := 2.0 * offset.abs * half
    sign * b.innerPoint target 60 target
  else
    let share := if offset < 0.0 then p else 1.0 - p
    let logArea := (2.0 * half).log + share.log
    sign * (b.outerPoint logArea 100 (b.beyond logArea)).exp

/-- The quantile of the standard normal distribution. -/
def normalQuantile (p : Float) : Except RangingError Float :=
  if Arith.isProbability p then .ok (Bell.normal.quantile p) else .error .invalidProbability

/-- The quantile of Student's t distribution. No degree of freedom means that there was nothing to estimate
a spread from. -/
def studentQuantile (p : Float) (dof : UInt32) : Except RangingError Float :=
  if !Arith.isProbability p then .error .invalidProbability
  else if dof = 0 then .error .emptyInput
  else .ok ((Bell.student dof.toNat.toFloat).quantile p)

end UwbRanging.Statistics
