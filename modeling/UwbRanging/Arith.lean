/-!
The arithmetic that distances are computed in. Estimators, statistics and the evaluation of a run are
written once over `Arith`, in a fixed order of operations: over `Float` they run, over an exact field the
same definitions say what the rounded results approximate.
-/

namespace UwbRanging

/-- Numbers that distances can be computed with. -/
class Arith (α : Type) extends Add α, Sub α, Mul α, Div α, Neg α where
  abs : α → α
  sqrt : α → α
  /-- `lt x y` is `false` as soon as one of the two is not a number. -/
  lt : α → α → Bool
  /-- Numeric equality: a zero equals its negation, and what is not a number equals nothing. -/
  eq : α → α → Bool
  isFinite : α → Bool
  /-- The number nearest to a count. -/
  ofNat : Nat → α
  /-- The nearest count that fits a 64-bit counter, halves away from zero; negative numbers and what is
  not a number give zero. -/
  toCount : α → Nat

instance : Arith Float where
  abs := Float.abs
  sqrt := Float.sqrt
  lt x y := decide (x < y)
  eq x y := x == y
  isFinite := Float.isFinite
  ofNat := Float.ofNat
  toCount x := x.round.toUInt64.toNat

namespace Arith

variable {α : Type} [Arith α]

def zero : α :=
  ofNat 0

def one : α :=
  ofNat 1

/-- `num / den`, for the constants that are not counts. -/
def ratio (num den : Nat) : α :=
  ofNat num / ofNat den

def square (x : α) : α :=
  x * x

/-- The sum from left to right. It starts from `-0`, the one number that leaves every number added to it as
it is. -/
def sum (xs : List α) : α :=
  xs.foldl (· + ·) (-zero)

/-- Strictly between zero and one. -/
def isProbability (p : α) : Bool :=
  lt zero p && lt p one

end Arith

end UwbRanging
