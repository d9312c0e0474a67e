import UwbRanging.Arith
import UwbRanging.Decimal.Fixed

/-!
Lengths that carry their unit, and the factors between units.
-/

namespace UwbRanging

inductive LengthUnit where
  /-- What light travels during one tick of the radio clock. -/
  | ticks
  | centimeters
  | meters
  deriving DecidableEq, Repr

/-- The propagation speed the nodes' firmware assumes, in meters per second. -/
def speedOfLight {α : Type} [Arith α] : α :=
  Arith.ratio 299702547236 1000

/-- The duration of one tick, in femtoseconds. -/
def tickFemtoseconds {α : Type} [Arith α] : α :=
  Arith.ofNat 15650

def metersPerTick {α : Type} [Arith α] : α :=
  speedOfLight * Arith.ratio 1 1000000000000000 * tickFemtoseconds

namespace LengthUnit

def metersPerUnit {α : Type} [Arith α] : LengthUnit → α
  | ticks => metersPerTick
  | centimeters => Arith.ratio 1 100
  | meters => Arith.one

/-- What a magnitude in unit `u` is multiplied by to be one in unit `v`. -/
def factorTo {α : Type} [Arith α] (u v : LengthUnit) : α :=
  if u = v then Arith.one else u.metersPerUnit / v.metersPerUnit

def suffix : LengthUnit → String
  | ticks => "tu"
  | centimeters => "cm"
  | meters => "m"

/-- The name of the unit in saved files. -/
def name : LengthUnit → String
  | ticks => "Ticks"
  | centimeters => "Centimeters"
  | meters => "Meters"

/-- Reads a suffix or an English name, ASCII letters of either case. The refusal shows the text in lower
case. -/
def parse (s : String) : Except String LengthUnit :=
  let s := s.map Char.toLower
  if s ∈ ["tu", "tick", "ticks"] then .ok ticks
  else if s ∈ ["cm", "centimeter", "centimeters"] then .ok centimeters
  else if s ∈ ["m", "meter", "meters"] then .ok meters
  else .error ("unknown length unit '" ++ s ++ "'")

end LengthUnit

/-- A signed length. -/
structure Length (α : Type) where
  value : α
  unit : LengthUnit
  deriving Repr

namespace Length

variable {α : Type} [Arith α]

def convert (l : Length α) (u : LengthUnit) : Length α :=
  ⟨l.value * l.unit.factorTo u, u⟩

def valueIn (l : Length α) (u : LengthUnit) : α :=
  (l.convert u).value

/-- Four decimal places and the unit. -/
def render (l : Length Float) : String :=
  Decimal.fixed 4 l.value ++ " " ++ l.unit.suffix

end Length

end UwbRanging
