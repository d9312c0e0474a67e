import UwbRanging.Arith
import UwbRanging.RangingError

/-!
Mean, variance and standard deviation of a series, summed from left to right.
-/

namespace UwbRanging.Statistics

variable {α : Type} [Arith α]

def mean (values : List α) : Except RangingError α :=
  if values.isEmpty then .error .emptyInput
  else .ok (Arith.sum values / Arith.ofNat values.length)

/-- The sample variance, over one less than the number of values. A single value does not vary. -/
def variance (values : List α) : Except RangingError α := do
  let m ← mean values
  if values.length < 2 then return Arith.zero
  return Arith.sum (values.map fun v => Arith.square (v - m)) / Arith.ofNat (values.length - 1)

def stdDev (values : List α) : Except RangingError α := do
  return Arith.sqrt (← variance values)

/-- Averages over the last `window` values. `count` values came before, `running` is the sum of those still
in the window, and `leaving` are the values that leave it next. -/
def movingAverageFrom (window : Nat) : Nat → α → List α → List α → List α
  | _, _, _, [] => []
  | count, running, leaving, v :: values =>
    if count < window then
      let running := running + v
      running / Arith.ofNat (count + 1) :: movingAverageFrom window (count + 1) running leaving values
    else match leaving with
      | [] => []
      | old :: leaving =>
        let running := running + v - old
        running / Arith.ofNat window :: movingAverageFrom window count running leaving values

/-- For each value the average of the last `window` values up to it, of fewer at the start of the series. -/
def movingAverage (values : List α) (window : Nat) : List α :=
  if window = 0 then [] else movingAverageFrom window 0 Arith.zero values values

end UwbRanging.Statistics
