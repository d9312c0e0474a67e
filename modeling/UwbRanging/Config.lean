import UwbRanging.Exchange
import UwbRanging.GroundTruth
import UwbRanging.Measurement

/-!
The settings of collection and evaluation, and what makes them valid.
-/

namespace UwbRanging

/-- How the ranges that nodes report are understood. -/
structure CollectorSettings (α : Type) where
  /-- The unit of reported ranges once they are scaled. -/
  rangeUnit : LengthUnit
  /-- What reported ranges are divided by. -/
  rangeScale : α
  /-- The estimator for exchanges of which only the clock readings are reported. -/
  estimator : Estimator

structure EvaluationConfig (α : Type) where
  /-- Values at least this far from the median of their series are outliers. In `rangeUnit`. -/
  threshold : α
  /-- The level of confidence intervals. -/
  confidence : α
  /-- Series with fewer measurements are left out of reports. -/
  minCount : Nat
  /-- The unit of ranges once they are scaled, and of reports. -/
  rangeUnit : LengthUnit
  /-- What reported ranges are divided by. -/
  rangeScale : α
  estimator : Estimator
  /-- The true distance of pairs whose positions are not known. In `rangeUnit`. -/
  groundTruth : Option α
  /-- Surveyed positions. -/
  positions : SortedMap NodeId (Position α)
  /-- How many recent ranges a live average covers. -/
  window : Nat
  /-- The duration of one step of the parameter in seconds, where the parameter counts time. -/
  parameterStep : Option α

namespace CollectorSettings

variable {α : Type} [Arith α]

def default : CollectorSettings α :=
  ⟨.centimeters, Arith.one, .asymmetric⟩

end CollectorSettings

inductive ConfigField where
  | threshold
  | confidence
  | rangeScale
  | window
  | parameterStep
  deriving DecidableEq, Repr

namespace ConfigField

/-- The name of the field in files. -/
def name : ConfigField → String
  | threshold => "threshold"
  | confidence => "confidence"
  | rangeScale => "range_scale"
  | window => "window"
  | parameterStep => "parameter_step"

/-- What the field has to satisfy. -/
def reason : ConfigField → String
  | threshold => "must be positive"
  | confidence => "must lie strictly between 0 and 1"
  | rangeScale => "must be finite and non-zero"
  | window => "must be at least 1"
  | parameterStep => "must be positive"

end ConfigField

namespace EvaluationConfig

variable {α : Type} [Arith α]

def default : EvaluationConfig α where
  threshold := Arith.ofNat 50
  confidence := Arith.ratio 95 100
  minCount := 0
  rangeUnit := .centimeters
  rangeScale := Arith.one
  estimator := .asymmetric
  groundTruth := none
  positions := .empty
  window := 5
  parameterStep := none

/-- Whether the value of a field lies in its domain. What is not a number lies in none. -/
def isValid (c : EvaluationConfig α) : ConfigField → Bool
  | .threshold => Arith.lt Arith.zero c.threshold
  | .confidence => Arith.isProbability c.confidence
  | .rangeScale => Arith.isFinite c.rangeScale && !Arith.eq c.rangeScale Arith.zero
  | .window => c.window != 0
  | .parameterStep =>
    match c.parameterStep with
    | none => true
    | some step => Arith.isFinite step && Arith.lt Arith.zero step

/-- The first field that lies outside its domain. -/
def firstInvalid? (c : EvaluationConfig α) : Option ConfigField :=
  [.threshold, .confidence, .rangeScale, .window, .parameterStep].find? fun f => !c.isValid f

def collectorSettings (c : EvaluationConfig α) : CollectorSettings α :=
  ⟨c.rangeUnit, c.rangeScale, c.estimator⟩

/-- The true distance of two nodes in `rangeUnit`: from their positions if both are known, else the one that
holds for every pair. -/
def groundTruthFor (c : EvaluationConfig α) (a b : NodeId) : Option α :=
  match c.positions.get? a, c.positions.get? b with
  | some p, some q => some (p.distanceTo q * LengthUnit.meters.factorTo c.rangeUnit)
  | _, _ => c.groundTruth

/-- The true distance difference at a listener in `rangeUnit`, if all three positions are known. -/
def tdoaTruthFor (c : EvaluationConfig α) (listener anchor1 anchor2 : NodeId) : Option α := do
  let p ← c.positions.get? listener
  let q ← c.positions.get? anchor1
  let r ← c.positions.get? anchor2
  return p.tdoa q r * LengthUnit.meters.factorTo c.rangeUnit

end EvaluationConfig

end UwbRanging
